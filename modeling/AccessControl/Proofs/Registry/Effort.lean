import AccessControl.Proofs.Registry.Iteration
import AccessControl.Proofs.Registry.Resolution

namespace AccessControl

namespace Registry

variable {registry : Registry} {edges : PermissionId → List PermissionId} {ids : List PermissionId}

/-- The permissions of a registry together with all their edges of one kind. -/
def extent (registry : Registry) (edges : PermissionId → List PermissionId) : Nat :=
  registry.size + (registry.ids.flatMap edges).length

/-- What some permissions make of the extent: one for each of them and one for each of their edges. -/
def weight (edges : PermissionId → List PermissionId) (ids : List PermissionId) : Nat :=
  ids.length + (ids.flatMap edges).length

theorem length_ids (registry : Registry) : registry.ids.length = registry.size :=
  Std.ExtTreeMap.length_keys

theorem weight_ids (registry : Registry) : weight edges registry.ids = registry.extent edges := by
  rw [weight, extent, length_ids]

theorem weight_cons (id : PermissionId) : weight edges (id :: ids) = (edges id).length + 1 + weight edges ids := by
  rw [weight, List.length_cons, List.flatMap_cons, List.length_append, weight]
  omega

theorem weight_filter_le {p q : PermissionId → Bool} (imp : ∀ id ∈ ids, p id = true → q id = true) :
    weight edges (ids.filter p) ≤ weight edges (ids.filter q) := by
  induction ids with
  | nil => exact Nat.le_refl _
  | cons first rest ih =>
    obtain ⟨here, later⟩ := List.forall_mem_cons.mp imp
    have fewer := ih later
    by_cases kept : p first = true
    · rw [List.filter_cons_of_pos kept, List.filter_cons_of_pos (here kept), weight_cons, weight_cons]
      omega
    · rw [List.filter_cons_of_neg kept, List.filter_cons]
      split
      · rw [weight_cons]
        omega
      · exact fewer

/-- If one permission is among those counted before and not among those after, its weight is what has been set free. -/
theorem weight_filter_add_le {p q : PermissionId → Bool} {id : PermissionId}
    (imp : ∀ id ∈ ids, p id = true → q id = true) (member : id ∈ ids) (before : q id = true) (after : p id = false) :
    weight edges (ids.filter p) + ((edges id).length + 1) ≤ weight edges (ids.filter q) := by
  induction ids with
  | nil => contradiction
  | cons first rest ih =>
    obtain ⟨here, later⟩ := List.forall_mem_cons.mp imp
    rcases List.mem_cons.mp member with rfl | member
    · have fewer : weight edges (rest.filter p) ≤ weight edges (rest.filter q) := weight_filter_le later
      rw [List.filter_cons_of_neg (by simp [after]), List.filter_cons_of_pos before, weight_cons]
      omega
    · have freed := ih later member
      by_cases kept : p first = true
      · rw [List.filter_cons_of_pos kept, List.filter_cons_of_pos (here kept), weight_cons, weight_cons]
        omega
      · rw [List.filter_cons_of_neg kept, List.filter_cons]
        split
        · rw [weight_cons]
          omega
        · exact freed

theorem length_le_size (distinct : ids.Nodup) (registered : ∀ id ∈ ids, id ∈ registry) :
    ids.length ≤ registry.size := by
  rw [← length_ids]
  exact distinct.length_le_of_subset fun id member => mem_ids.mpr (registered id member)

end Registry

namespace DependencyWalk

variable {registry : Registry} {origin : PermissionId} {walk next : DependencyWalk} {count : Nat}
  {pushed : List PermissionId}

def stack (walk : DependencyWalk) : List PermissionId :=
  walk.path.map Frame.permission

/-- The walk for what a permission depends on comes to this state after so many iterations. -/
abbrev Comes (registry : Registry) (origin : PermissionId) : Nat → List PermissionId → DependencyWalk → Prop :=
  Iterates (DependencyWalk.step registry) stack (start registry origin)

/-- An iteration for each frame on the path and each edge ahead there, and for all that has not been touched. -/
def work (registry : Registry) (walk : DependencyWalk) : Nat :=
  walk.remaining + Registry.weight registry.dependencies (walk.untouched registry)

theorem work_step_lt (stepped : walk.step registry = .ok (some next)) : next.work registry < walk.work registry := by
  rcases step_eq_some_iff.mp stepped with
    ⟨permission, rest, top, rfl⟩ | ⟨permission, target, ahead, rest, top, offPath, entered⟩
  · have fewer : Registry.weight registry.dependencies ((walk.leave permission rest).untouched registry) ≤
        Registry.weight registry.dependencies (walk.untouched registry) := by
      refine Registry.weight_filter_le fun id _ untouched => ?_
      simp only [leave, Std.ExtTreeSet.mem_erase, Std.ExtTreeSet.mem_insert, decide_eq_true_eq] at untouched ⊢
      grind
    simp only [work, remaining, top, List.flatMap_cons, List.nil_append, List.length_cons] at fewer ⊢
    simp only [leave] at fewer ⊢
    omega
  · rcases entered with ⟨finished, rfl⟩ | ⟨unfinished, registered, rfl⟩
    · simp only [work, remaining, top, untouched, List.flatMap_cons, List.length_append, List.length_cons]
      omega
    · have freed : Registry.weight registry.dependencies
            ((walk.enter registry target (⟨permission, ahead⟩ :: rest)).untouched registry) +
          ((registry.dependencies target).length + 1) ≤
        Registry.weight registry.dependencies (walk.untouched registry) := by
        refine Registry.weight_filter_add_le ?_ (Registry.mem_ids.mpr registered) ?_ ?_
        · intro id _ untouched
          simp only [enter, Std.ExtTreeSet.mem_insert, decide_eq_true_eq] at untouched ⊢
          grind
        · simp [offPath, unfinished]
        · simp [enter]
      simp only [work, remaining, top, List.flatMap_cons, List.length_append, List.length_cons] at freed ⊢
      simp only [enter, List.flatMap_cons, List.length_append, List.length_cons] at freed ⊢
      omega

theorem work_start_le (registered : origin ∈ registry) :
    (start registry origin).work registry ≤ registry.extent registry.dependencies := by
  have freed : Registry.weight registry.dependencies ((start registry origin).untouched registry) +
      ((registry.dependencies origin).length + 1) ≤
        Registry.weight registry.dependencies (registry.ids.filter fun _ => true) :=
    Registry.weight_filter_add_le (by simp) (Registry.mem_ids.mpr registered) rfl (by simp [start])
  have all : registry.ids.filter (fun _ => true) = registry.ids := List.filter_eq_self.mpr fun _ _ => rfl
  rw [all, Registry.weight_ids] at freed
  simp only [work, remaining, start, List.flatMap_cons, List.flatMap_nil, List.append_nil, List.length_cons,
    List.length_nil] at freed ⊢
  omega

/-- Just what is on the path or has been left has been put on the stack, and each once. -/
structure Recorded (pushed : List PermissionId) (walk : DependencyWalk) : Prop where
  once : pushed.Nodup
  mem_iff : ∀ id, id ∈ pushed ↔ id ∈ walk.onPath ∨ id ∈ walk.finished

theorem start_recorded (registry : Registry) (origin : PermissionId) :
    Recorded (start registry origin).stack (start registry origin) where
  once := by simp [stack, start]
  mem_iff id := by simp [stack, start, eq_comm (a := id)]

theorem Recorded.step (recorded : Recorded pushed walk) (sound : Sound registry origin walk)
    (stepped : walk.step registry = .ok (some next)) : Recorded (placed walk.stack next.stack ++ pushed) next := by
  obtain ⟨once, mem_iff⟩ := recorded
  rcases step_eq_some_iff.mp stepped with
    ⟨permission, rest, top, rfl⟩ | ⟨permission, target, ahead, rest, top, offPath, entered⟩
  · have current : permission ∈ walk.onPath := (sound.onPath permission).mpr (by simp [top])
    rw [placed_of_length_le (by simp [stack, leave, top]), List.nil_append]
    refine ⟨once, fun id => (mem_iff id).trans ?_⟩
    simp only [leave, Std.ExtTreeSet.mem_erase, Std.ExtTreeSet.mem_insert]
    grind
  · rcases entered with ⟨finished, rfl⟩ | ⟨unfinished, registered, rfl⟩
    · rw [placed_of_length_le (by simp [stack, top]), List.nil_append]
      exact ⟨once, mem_iff⟩
    · have fresh : target ∉ pushed := fun again => ((mem_iff target).mp again).elim offPath unfinished
      have new : placed walk.stack (walk.enter registry target (⟨permission, ahead⟩ :: rest)).stack = [target] :=
        placed_cons target (by simp [stack, top])
      rw [new, List.singleton_append]
      refine ⟨List.nodup_cons.mpr ⟨fresh, once⟩, fun id => ?_⟩
      simp only [List.mem_cons, mem_iff, enter, Std.ExtTreeSet.mem_insert, Std.LawfulEqCmp.compare_eq_iff_eq,
        eq_comm (a := id), or_assoc]

theorem Comes.invariants (registered : origin ∈ registry) (comes : Comes registry origin count pushed walk) :
    Sound registry origin walk ∧ Recorded pushed walk := by
  induction comes with
  | start => exact ⟨start_sound registered, start_recorded registry origin⟩
  | next _ stepped ih =>
    obtain ⟨sound, recorded⟩ := ih
    exact ⟨sound.step stepped, recorded.step sound stepped⟩

/-- What is true of the walk whenever it begins an iteration, and what has been put on its stack by then. -/
structure Orderly (registry : Registry) (origin : PermissionId) (pushed : List PermissionId) (walk : DependencyWalk) :
    Prop where
  distinct : walk.stack.Nodup
  registered : ∀ id ∈ walk.stack, id ∈ registry
  linked : Linked registry origin walk.path
  ahead : ∀ frame ∈ walk.path, frame.ahead <:+ registry.dependencies frame.permission
  onPath : ∀ id, id ∈ walk.onPath ↔ id ∈ walk.stack
  apart : ∀ id ∈ walk.finished, id ∉ walk.onPath
  finished : ∀ id, id ∈ walk.finished ↔ id ∈ walk.resolved ∨ walk.stack = [] ∧ id = origin
  closed : ∀ id ∈ walk.finished, ∀ target, registry.DependsOn id target → target ∈ walk.finished
  once : pushed.Nodup
  known : ∀ id ∈ pushed, id ∈ registry
  shallow : walk.stack.length ≤ registry.size

theorem Comes.orderly (registered : origin ∈ registry) (comes : Comes registry origin count pushed walk) :
    Orderly registry origin pushed walk := by
  obtain ⟨sound, recorded⟩ := comes.invariants registered
  have onStack : ∀ id ∈ walk.stack, id ∈ registry := by
    intro id member
    obtain ⟨frame, framed, rfl⟩ := List.mem_map.mp member
    exact sound.registered frame framed
  have left : ∀ id, id ∈ walk.finished ↔ id ∈ walk.resolved ∨ walk.stack = [] ∧ id = origin := by
    intro id
    rw [sound.finished, DependencyWalk.left, stack, List.map_eq_nil_iff]
    by_cases ended : walk.path = []
    · simp [ended, or_comm]
    · simp [ended]
  refine ⟨sound.distinct, onStack, sound.linked, sound.ahead, sound.onPath, sound.apart, left, ?_, recorded.once, ?_,
    Registry.length_le_size sound.distinct onStack⟩
  · intro id finished target edge
    rw [sound.finished] at finished ⊢
    exact sound.ordered.mem_of_dependsOn finished edge
  · intro id member
    rcases (recorded.mem_iff id).mp member with entered | finished
    · exact onStack id ((sound.onPath id).mp entered)
    · rcases (left id).mp finished with resolved | ⟨_, rfl⟩
      · exact (sound.resolved id resolved).1
      · exact registered

theorem resolveDependencies_endsWithin (registered : origin ∈ registry) :
    EndsWithin (DependencyWalk.step registry) stack (start registry origin) (fun last => last.resolved.reverse)
      (registry.extent registry.dependencies) (registry.resolveDependencies origin) := by
  rw [Registry.resolveDependencies, if_pos registered]
  refine .mono (work_start_le registered) ?_
  exact endsWithin_of_work (fun _ _ => work_step_lt) (fun _ _ => run_of_step) (fun _ => run_of_end)
    (fun _ _ => run_of_error) stack _

end DependencyWalk

end AccessControl
