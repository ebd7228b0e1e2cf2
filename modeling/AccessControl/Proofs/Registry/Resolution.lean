import AccessControl.Proofs.Registry.Graph
import AccessControl.Registry.Dependencies

/-!
What every step of the dependency walk keeps true, and what therefore holds of its outcome: all requirements of
the origin, each after its own, or a fault that is really there. The walk never looks further than the
requirements of its origin, so a fault elsewhere in the registry does not disturb it.
-/

namespace AccessControl

open Relation

namespace Registry

variable {registry : Registry} {id target : PermissionId} {ids earlier : List PermissionId}

/-- Permissions, latest first, none of them twice and each after all that it depends on. -/
def Ordered (registry : Registry) : List PermissionId → Prop
  | [] => True
  | id :: earlier =>
    id ∉ earlier ∧ (∀ target, registry.DependsOn id target → target ∈ earlier) ∧ registry.Ordered earlier

theorem Ordered.nodup (ordered : registry.Ordered ids) : ids.Nodup := by
  induction ids with
  | nil => exact List.nodup_nil
  | cons id earlier ih => exact List.nodup_cons.mpr ⟨ordered.1, ih ordered.2.2⟩

theorem Ordered.mem_of_dependsOn (ordered : registry.Ordered ids) (member : id ∈ ids)
    (edge : registry.DependsOn id target) : target ∈ ids := by
  induction ids with
  | nil => contradiction
  | cons first earlier ih =>
    obtain ⟨_, complete, rest⟩ := ordered
    rcases List.mem_cons.mp member with rfl | member
    · exact List.mem_cons_of_mem _ (complete target edge)
    · exact List.mem_cons_of_mem _ (ih rest member)

theorem Ordered.requirements_subset (ordered : registry.Ordered (id :: earlier))
    (path : target ∈ registry.requirements id) : target ∈ earlier := by
  obtain ⟨_, complete, rest⟩ := ordered
  induction path with
  | single edge => exact complete _ edge
  | tail _ edge ih => exact rest.mem_of_dependsOn ih edge

theorem Ordered.of_append {later : List PermissionId} (ordered : registry.Ordered (later ++ ids)) :
    registry.Ordered ids := by
  induction later with
  | nil => exact ordered
  | cons id later ih => exact ih ordered.2.2

theorem Ordered.not_onCycle (ordered : registry.Ordered ids) (member : id ∈ ids) : ¬ registry.OnCycle id := by
  induction ids with
  | nil => contradiction
  | cons first earlier ih =>
    rcases List.mem_cons.mp member with rfl | member
    · exact fun cycle => ordered.1 (ordered.requirements_subset cycle)
    · exact ih ordered.2.2 member

inductive ResolutionFault (registry : Registry) (origin : PermissionId) : RegistryError → Prop where
  | unregistered {culprit : PermissionId} (required : culprit ∈ registry.requirements origin)
    (missing : culprit ∉ registry) : ResolutionFault registry origin (.unknownPermission culprit)
  | cyclic {culprit : PermissionId} (required : culprit ∈ registry.requirements origin)
    (cycle : registry.OnCycle culprit) : ResolutionFault registry origin (.circularDependency culprit)

theorem ResolutionFault.not_resolvable {error : RegistryError} (fault : registry.ResolutionFault id error) :
    ¬ registry.Resolvable id := by
  intro resolvable
  cases fault with
  | unregistered required missing => exact missing (resolvable.requirements _ required)
  | cyclic required cycle => exact resolvable.acyclic.2 _ required cycle

end Registry

namespace DependencyWalk

variable {registry : Registry} {origin : PermissionId} {walk next : DependencyWalk} {frame : Frame}
  {path : List Frame}

/-- Each permission on the path is a dependency of the one it was entered from, down to the origin. -/
def Linked (registry : Registry) (origin : PermissionId) : List Frame → Prop
  | [] => True
  | [frame] => frame.permission = origin
  | frame :: below :: rest =>
    registry.DependsOn below.permission frame.permission ∧ Linked registry origin (below :: rest)

/-- The dependencies that a frame has put behind it are finished, save the one that was entered from it. -/
def Explored (registry : Registry) (finished : PermissionSet) (entered : Option PermissionId) : List Frame → Prop
  | [] => True
  | frame :: rest =>
    (∀ target, registry.DependsOn frame.permission target →
      target ∈ frame.ahead ∨ target ∈ finished ∨ entered = some target) ∧
    Explored registry finished (some frame.permission) rest

/-- The permissions that have been left, latest first. -/
def left (walk : DependencyWalk) (origin : PermissionId) : List PermissionId :=
  if walk.path.isEmpty then origin :: walk.resolved else walk.resolved

structure Sound (registry : Registry) (origin : PermissionId) (walk : DependencyWalk) : Prop where
  registered : ∀ frame ∈ walk.path, frame.permission ∈ registry
  linked : Linked registry origin walk.path
  distinct : (walk.path.map Frame.permission).Nodup
  onPath : ∀ id, id ∈ walk.onPath ↔ id ∈ walk.path.map Frame.permission
  ahead : ∀ frame ∈ walk.path, frame.ahead <:+ registry.dependencies frame.permission
  explored : Explored registry walk.finished none walk.path
  finished : ∀ id, id ∈ walk.finished ↔ id ∈ walk.left origin
  apart : ∀ id ∈ walk.finished, id ∉ walk.onPath
  ordered : registry.Ordered (walk.left origin)
  resolved : ∀ id ∈ walk.resolved, id ∈ registry ∧ id ∈ registry.requirements origin

theorem Linked.reflTransGen (linked : Linked registry origin (frame :: path)) :
    ReflTransGen registry.DependsOn origin frame.permission := by
  induction path generalizing frame with
  | nil => exact linked ▸ .refl
  | cons below rest ih => exact (ih linked.2).tail linked.1

theorem Linked.reaches_top (linked : Linked registry origin (frame :: path)) {lower : Frame}
    (member : lower ∈ frame :: path) : ReflTransGen registry.DependsOn lower.permission frame.permission := by
  induction path generalizing frame with
  | nil => exact List.mem_singleton.mp member ▸ .refl
  | cons below rest ih =>
    rcases List.mem_cons.mp member with rfl | member
    · exact .refl
    · exact (ih linked.2 member).tail linked.1

theorem Linked.mem_requirements (linked : Linked registry origin (frame :: path)) {target : PermissionId}
    (edge : registry.DependsOn frame.permission target) : target ∈ registry.requirements origin :=
  .tail' linked.reflTransGen edge

theorem Explored.mono {fewer more : PermissionSet} {entered other : Option PermissionId}
    (explored : Explored registry fewer entered path) (subset : ∀ id ∈ fewer, id ∈ more)
    (kept : ∀ id, entered = some id → id ∈ more ∨ other = some id) : Explored registry more other path := by
  induction path generalizing entered other with
  | nil => trivial
  | cons frame rest ih =>
    obtain ⟨behind, below⟩ := explored
    refine ⟨fun target edge => ?_, ih below fun _ same => .inr same⟩
    rcases behind target edge with ahead | finished | same
    · exact .inl ahead
    · exact .inr (.inl (subset target finished))
    · exact .inr (kept target same)

theorem step_eq_error_iff {error : RegistryError} :
    walk.step registry = .error error ↔
      ∃ permission target ahead rest, walk.path = ⟨permission, target :: ahead⟩ :: rest ∧
        (target ∈ walk.onPath ∧ error = .circularDependency target ∨
          target ∉ walk.onPath ∧ target ∉ walk.finished ∧ target ∉ registry ∧ error = .unknownPermission target) := by
  unfold step
  grind

theorem step_eq_none_iff : walk.step registry = .ok none ↔ walk.path = [] := by
  unfold step
  grind

theorem step_eq_some_iff :
    walk.step registry = .ok (some next) ↔
      (∃ permission rest, walk.path = ⟨permission, []⟩ :: rest ∧ next = walk.leave permission rest) ∨
      ∃ permission target ahead rest, walk.path = ⟨permission, target :: ahead⟩ :: rest ∧ target ∉ walk.onPath ∧
        (target ∈ walk.finished ∧ next = { walk with path := ⟨permission, ahead⟩ :: rest } ∨
          target ∉ walk.finished ∧ target ∈ registry ∧
            next = walk.enter registry target (⟨permission, ahead⟩ :: rest)) := by
  unfold step
  grind

theorem left_of_path (top : walk.path = frame :: path) : walk.left origin = walk.resolved := by
  simp [left, top]

theorem start_sound (registered : origin ∈ registry) : Sound registry origin (start registry origin) where
  registered := by simpa [start] using registered
  linked := rfl
  distinct := by simp [start]
  onPath id := by simp [start, eq_comm (a := id)]
  ahead := by simp [start]
  explored := ⟨fun _ edge => .inl edge, trivial⟩
  finished id := by simp [start, left]
  apart := by simp [start]
  ordered := trivial
  resolved := by simp [start]

theorem Sound.skip {permission target : PermissionId} {ahead : List PermissionId} (sound : Sound registry origin walk)
    (top : walk.path = ⟨permission, target :: ahead⟩ :: path) (finished : target ∈ walk.finished) :
    Sound registry origin { walk with path := ⟨permission, ahead⟩ :: path } := by
  have ⟨registered, linked, distinct, onPath, suffixes, explored, left, apart, ordered, resolved⟩ := sound
  rw [top] at registered linked distinct onPath suffixes explored
  simp only [left_of_path top] at left ordered
  refine ⟨?_, ?_, distinct, onPath, ?_, ⟨?_, explored.2⟩, left, apart, ordered, resolved⟩
  · simpa using registered
  · cases path <;> exact linked
  · intro frame member
    rcases List.mem_cons.mp member with rfl | below
    · exact (List.suffix_cons target ahead).trans (suffixes _ List.mem_cons_self)
    · exact suffixes frame (List.mem_cons_of_mem _ below)
  · intro other edge
    rcases explored.1 other edge with ahead | behind | entered
    · rcases List.mem_cons.mp ahead with rfl | ahead
      · exact .inr (.inl finished)
      · exact .inl ahead
    · exact .inr (.inl behind)
    · cases entered

theorem Sound.enter {permission target : PermissionId} {ahead : List PermissionId}
    (sound : Sound registry origin walk) (top : walk.path = ⟨permission, target :: ahead⟩ :: path)
    (offPath : target ∉ walk.onPath) (unfinished : target ∉ walk.finished) (registered : target ∈ registry) :
    Sound registry origin (walk.enter registry target (⟨permission, ahead⟩ :: path)) := by
  have ⟨registeredPath, linked, distinct, onPath, suffixes, explored, left, apart, ordered, resolved⟩ := sound
  rw [top] at registeredPath linked distinct onPath suffixes explored
  simp only [left_of_path top] at left ordered
  have suffix := suffixes _ List.mem_cons_self
  have edge : registry.DependsOn permission target := suffix.subset List.mem_cons_self
  refine ⟨?_, ⟨edge, ?_⟩, ?_, ?_, ?_, ⟨fun _ edge => .inl edge, ?_, explored.2⟩, left, ?_, ordered, resolved⟩
  · simp only [DependencyWalk.enter, List.mem_cons, forall_eq_or_imp] at registeredPath ⊢
    exact ⟨registered, registeredPath⟩
  · cases path <;> exact linked
  · exact List.nodup_cons.mpr ⟨fun again => offPath ((onPath target).mpr again), distinct⟩
  · intro id
    simp only [DependencyWalk.enter, Std.ExtTreeSet.mem_insert, onPath, List.map_cons, List.mem_cons,
      Std.LawfulEqCmp.compare_eq_iff_eq, eq_comm (a := target)]
  · intro frame member
    rcases List.mem_cons.mp member with rfl | member
    · exact List.suffix_refl _
    rcases List.mem_cons.mp member with rfl | below
    · exact (List.suffix_cons target ahead).trans suffix
    · exact suffixes frame (List.mem_cons_of_mem _ below)
  · intro other edge
    rcases explored.1 other edge with ahead | behind | entered
    · rcases List.mem_cons.mp ahead with rfl | ahead
      · exact .inr (.inr rfl)
      · exact .inl ahead
    · exact .inr (.inl behind)
    · cases entered
  · intro id finished entered
    simp only [DependencyWalk.enter, Std.ExtTreeSet.mem_insert, Std.LawfulEqCmp.compare_eq_iff_eq] at finished entered
    rcases entered with rfl | entered
    · exact unfinished finished
    · exact apart id finished entered

theorem left_leave {permission : PermissionId} (linked : Linked registry origin (⟨permission, []⟩ :: path)) :
    (walk.leave permission path).left origin = permission :: walk.resolved := by
  cases path with
  | nil => simp [left, leave, show permission = origin from linked]
  | cons below rest => simp [left, leave]

theorem Sound.leave {permission : PermissionId} (sound : Sound registry origin walk)
    (top : walk.path = ⟨permission, []⟩ :: path) : Sound registry origin (walk.leave permission path) := by
  have ⟨registered, linked, distinct, onPath, suffixes, explored, left, apart, ordered, resolved⟩ := sound
  rw [top] at registered linked distinct onPath suffixes explored
  simp only [left_of_path top] at left ordered
  obtain ⟨notBelow, distinct⟩ := List.nodup_cons.mp distinct
  have current : permission ∈ walk.onPath := (onPath permission).mpr List.mem_cons_self
  -- Nothing is ahead and nothing has been entered from the top, so all its dependencies are finished.
  have complete : ∀ target, registry.DependsOn permission target → target ∈ walk.resolved := by
    intro target edge
    rcases explored.1 target edge with ahead | finished | entered
    · cases ahead
    · exact (left target).mp finished
    · cases entered
  refine ⟨fun frame below => registered frame (List.mem_cons_of_mem _ below), ?_, distinct, ?_,
    fun frame below => suffixes frame (List.mem_cons_of_mem _ below), ?_, ?_, ?_, ?_, ?_⟩
  · cases path with
    | nil => trivial
    | cons below rest => exact linked.2
  · intro id
    simp only [DependencyWalk.leave, Std.ExtTreeSet.mem_erase, onPath, List.map_cons, List.mem_cons]
    grind
  · refine explored.2.mono (fun id finished => by simp [DependencyWalk.leave, finished]) fun id entered => ?_
    obtain rfl : permission = id := Option.some.inj entered
    exact .inl (by simp [DependencyWalk.leave])
  · intro id
    rw [left_leave linked, List.mem_cons, ← left]
    simp [DependencyWalk.leave, eq_comm (a := id)]
  · intro id finished remaining
    simp only [DependencyWalk.leave, Std.ExtTreeSet.mem_insert, Std.ExtTreeSet.mem_erase,
      Std.LawfulEqCmp.compare_eq_iff_eq] at finished remaining
    rcases finished with rfl | finished
    · exact remaining.1 Std.ReflCmp.compare_self
    · exact apart id finished remaining.2
  · rw [left_leave linked]
    exact ⟨fun again => apart permission ((left permission).mpr again) current, complete, ordered⟩
  · cases path with
    | nil => exact resolved
    | cons below rest =>
      intro id member
      rcases List.mem_cons.mp member with rfl | member
      · exact ⟨registered _ List.mem_cons_self, linked.2.mem_requirements linked.1⟩
      · exact resolved id member

theorem Sound.step (sound : Sound registry origin walk) (stepped : walk.step registry = .ok (some next)) :
    Sound registry origin next := by
  rcases step_eq_some_iff.mp stepped with
    ⟨permission, rest, top, rfl⟩ | ⟨permission, target, ahead, rest, top, offPath, entered⟩
  · exact sound.leave top
  · rcases entered with ⟨finished, rfl⟩ | ⟨unfinished, registered, rfl⟩
    · exact sound.skip top finished
    · exact sound.enter top offPath unfinished registered

theorem run_of_error {error : RegistryError} (failed : walk.step registry = .error error) :
    walk.run registry = .error error := by
  rw [run]
  grind

theorem run_of_end (ended : walk.step registry = .ok none) : walk.run registry = .ok walk.resolved.reverse := by
  rw [run]
  grind

theorem run_of_step (stepped : walk.step registry = .ok (some next)) : walk.run registry = next.run registry := by
  rw [run]
  grind

/-- What the steps keep true holds where the walk ends, whether it ends well or not. -/
theorem run_keeps {Keeps : DependencyWalk → Prop}
    (keeps : ∀ walk next, Keeps walk → walk.step registry = .ok (some next) → Keeps next) (holds : Keeps walk) :
    ∃ last, Keeps last ∧
      (last.step registry = .ok none ∧ walk.run registry = .ok last.resolved.reverse ∨
        ∃ error, last.step registry = .error error ∧ walk.run registry = .error error) := by
  induction walk using DependencyWalk.run.induct registry with
  | case1 walk error failed => exact ⟨walk, holds, .inr ⟨error, failed, run_of_error failed⟩⟩
  | case2 walk ended => exact ⟨walk, holds, .inl ⟨ended, run_of_end ended⟩⟩
  | case3 walk next stepped ih =>
    rw [run_of_step stepped]
    exact ih (keeps walk next holds stepped)

theorem Sound.fault {error : RegistryError} (sound : Sound registry origin walk)
    (failed : walk.step registry = .error error) : registry.ResolutionFault origin error := by
  obtain ⟨permission, target, ahead, rest, top, cause⟩ := step_eq_error_iff.mp failed
  have linked := top ▸ sound.linked
  have onPath := top ▸ sound.onPath
  have suffix := sound.ahead ⟨permission, target :: ahead⟩ (top ▸ List.mem_cons_self)
  have edge : registry.DependsOn permission target := suffix.subset List.mem_cons_self
  have required : target ∈ registry.requirements origin := linked.mem_requirements edge
  rcases cause with ⟨entered, rfl⟩ | ⟨_, _, missing, rfl⟩
  · obtain ⟨frame, member, rfl⟩ := List.mem_map.mp ((onPath target).mp entered)
    have cycle : registry.OnCycle frame.permission := .tail' (linked.reaches_top member) edge
    exact .cyclic required cycle
  · exact .unregistered required missing

end DependencyWalk

namespace Registry

variable {registry : Registry} {id : PermissionId} {list : List PermissionId} {error : RegistryError}

theorem resolveDependencies_sound (registered : id ∈ registry) :
    (∃ last, DependencyWalk.Sound registry id last ∧ last.path = [] ∧
      registry.resolveDependencies id = .ok last.resolved.reverse) ∨
    ∃ error, registry.ResolutionFault id error ∧ registry.resolveDependencies id = .error error := by
  rw [resolveDependencies, if_pos registered]
  obtain ⟨last, sound, ⟨ended, result⟩ | ⟨error, failed, result⟩⟩ :=
    DependencyWalk.run_keeps (fun _ _ => DependencyWalk.Sound.step) (DependencyWalk.start_sound registered)
  · exact .inl ⟨last, sound, DependencyWalk.step_eq_none_iff.mp ended, result⟩
  · exact .inr ⟨error, sound.fault failed, result⟩

theorem resolveDependencies_of_not_mem (missing : id ∉ registry) :
    registry.resolveDependencies id = .error (.unknownPermission id) :=
  if_neg missing

/-- The list of a resolution is the requirements, and with the permission itself at its end it is ordered. -/
theorem resolveDependencies_eq_ok (resolved : registry.resolveDependencies id = .ok list) :
    registry.Ordered (id :: list.reverse) ∧ (∀ target, target ∈ list ↔ target ∈ registry.requirements id) ∧
      registry.Resolvable id := by
  by_cases registered : id ∈ registry
  · rcases resolveDependencies_sound registered with ⟨last, sound, ended, result⟩ | ⟨error, _, result⟩
    · rw [resolved, Except.ok.injEq] at result
      have ordered : registry.Ordered (id :: last.resolved) := by
        simpa [DependencyWalk.left, ended] using sound.ordered
      have same : ∀ target, target ∈ list ↔ target ∈ registry.requirements id := by
        intro target
        rw [result, List.mem_reverse]
        exact ⟨fun member => (sound.resolved target member).2, ordered.requirements_subset⟩
      have known : ∀ target ∈ registry.requirements id, target ∈ last.resolved := by
        intro target required
        exact ordered.requirements_subset required
      refine ⟨by rwa [result, List.reverse_reverse], same, registered,
        fun target required => (sound.resolved target (known target required)).1,
        ordered.not_onCycle List.mem_cons_self, fun target required => ?_⟩
      exact ordered.not_onCycle (List.mem_cons_of_mem _ (known target required))
    · simp [resolved] at result
  · simp [resolveDependencies_of_not_mem registered] at resolved

theorem resolveDependencies_nodup (resolved : registry.resolveDependencies id = .ok list) : list.Nodup :=
  list.reverse_perm.nodup_iff.mp (resolveDependencies_eq_ok resolved).1.2.2.nodup

/-- Where a requirement is listed, its own requirements have been listed before. -/
theorem resolveDependencies_before {before after : List PermissionId} {target needed : PermissionId}
    (resolved : registry.resolveDependencies id = .ok (before ++ target :: after))
    (path : needed ∈ registry.requirements target) : needed ∈ before := by
  have ordered := (resolveDependencies_eq_ok resolved).1.2.2
  rw [List.reverse_append, List.reverse_cons, List.append_assoc, List.singleton_append] at ordered
  exact List.mem_reverse.mp (ordered.of_append.requirements_subset path)

theorem resolveDependencies_eq_error (failed : registry.resolveDependencies id = .error error) :
    id ∉ registry ∧ error = .unknownPermission id ∨ id ∈ registry ∧ registry.ResolutionFault id error := by
  by_cases registered : id ∈ registry
  · rcases resolveDependencies_sound registered with ⟨_, _, _, result⟩ | ⟨other, fault, result⟩
    · simp [failed] at result
    · rw [failed, Except.error.injEq] at result
      exact .inr ⟨registered, result ▸ fault⟩
  · rw [resolveDependencies_of_not_mem registered, Except.error.injEq] at failed
    exact .inl ⟨registered, failed.symm⟩

theorem resolvable_iff : registry.Resolvable id ↔ ∃ list, registry.resolveDependencies id = .ok list := by
  constructor
  · intro resolvable
    cases outcome : registry.resolveDependencies id with
    | ok list => exact ⟨list, rfl⟩
    | error error =>
      rcases resolveDependencies_eq_error outcome with ⟨missing, _⟩ | ⟨_, fault⟩
      · exact absurd resolvable.registered missing
      · exact absurd resolvable fault.not_resolvable
  · intro success
    obtain ⟨list, resolved⟩ := success
    exact (resolveDependencies_eq_ok resolved).2.2

/-- What a resolution comes to: each requirement once and after its own requirements, or a fault that can be come
upon from the permission. -/
inductive Resolves (registry : Registry) (id : PermissionId) : Except RegistryError (List PermissionId) → Prop where
  | listed {list : List PermissionId} (distinct : list.Nodup)
    (mem_iff : ∀ target, target ∈ list ↔ target ∈ registry.requirements id) (apart : id ∉ list)
    (ordered : ∀ before target after, list = before ++ target :: after →
      ∀ needed ∈ registry.requirements target, needed ∈ before) :
    Resolves registry id (.ok list)
  | unregistered {culprit : PermissionId} (missing : culprit ∉ registry) (reached : registry.Reaches id culprit) :
    Resolves registry id (.error (.unknownPermission culprit))
  | cyclic {culprit : PermissionId} (registered : culprit ∈ registry) (cycle : registry.OnCycle culprit)
    (reached : registry.Reaches id culprit) : Resolves registry id (.error (.circularDependency culprit))

/-- The walk lists the requirements of just those permissions of which all are registered and none is on a cycle, and
it lists exactly these; of any other permission it names what is wrong. -/
theorem resolution_exact (registry : Registry) (id : PermissionId) :
    ((∃ list, registry.resolveDependencies id = .ok list) ↔ registry.Resolvable id) ∧
      registry.Resolves id (registry.resolveDependencies id) := by
  refine ⟨resolvable_iff.symm, ?_⟩
  cases outcome : registry.resolveDependencies id with
  | ok list =>
    obtain ⟨⟨apart, _⟩, members, _⟩ := resolveDependencies_eq_ok outcome
    refine .listed (resolveDependencies_nodup outcome) members (fun member => apart (List.mem_reverse.mpr member)) ?_
    intro before target after split needed required
    exact resolveDependencies_before (split ▸ outcome) required
  | error error =>
    rcases resolveDependencies_eq_error outcome with ⟨missing, rfl⟩ | ⟨_, fault⟩
    · exact .unregistered missing .refl
    · cases fault with
      | unregistered required missing => exact .unregistered missing (reaches_of_requires required)
      | cyclic required cycle => exact .cyclic (mem_of_requires cycle) cycle (reaches_of_requires required)

end Registry

end AccessControl
