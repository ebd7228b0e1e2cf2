import AccessControl.Proofs.Registry.Closure
import AccessControl.Proofs.Registry.Effort

/-!
The expansion of permissions in its smallest steps. One loop takes them all, over the given permissions, over what is
pending and over the implications of what is being expanded; so what is said of a step holds throughout the expansion,
and what is counted is counted over all given permissions together.
-/

namespace AccessControl

/-- An expansion under way, with the given permissions and the implications of the permission being expanded that have
not been looked at. -/
structure ExpansionLoop where
  given : List PermissionId
  implications : List PermissionId
  expansion : Expansion

namespace ExpansionLoop

open Expansion

variable {registry : Registry} {ids : List PermissionId} {id : PermissionId} {loop next : ExpansionLoop} {count : Nat}
  {pushed : List PermissionId} {error : RegistryError} {expansion after : Expansion}

def start (ids : List PermissionId) : ExpansionLoop := ⟨ids, [], .start⟩

/-- Looks at the next implication; when there is none, at the permission found last; when none is pending, at the next
of the given permissions; and at nothing when all have been looked at. -/
def step (registry : Registry) (loop : ExpansionLoop) : Except RegistryError (Option ExpansionLoop) :=
  match loop.implications with
  | id :: rest =>
    (loop.expansion.add registry id).map fun after => some { loop with implications := rest, expansion := after }
  | [] =>
    match loop.expansion.pending with
    | id :: pending =>
      .ok (some { loop with
        implications := registry.implied id
        expansion := { loop.expansion with pending := pending } })
    | [] =>
      match loop.given with
      | id :: rest =>
        (loop.expansion.add registry id).map fun after => some { loop with given := rest, expansion := after }
      | [] => .ok none

def stack (loop : ExpansionLoop) : List PermissionId :=
  loop.expansion.pending

/-- The loop over the given permissions comes to this state after so many iterations. -/
abbrev Comes (registry : Registry) (ids : List PermissionId) : Nat → List PermissionId → ExpansionLoop → Prop :=
  Iterates (step registry) stack (start ids)

/-- What an expansion that stands there comes to. -/
def remainder (registry : Registry) (loop : ExpansionLoop) : Except RegistryError PermissionSet := do
  let looked ← loop.implications.foldlM (add registry) loop.expansion
  let found ← looked.run registry
  let last ← loop.given.foldlM (close registry) found
  return last.expanded

/-- All that an iteration can come to, with what it finds when it does. -/
inductive Turn (registry : Registry) (loop : ExpansionLoop) : Except RegistryError (Option ExpansionLoop) → Prop where
  | look {id : PermissionId} {rest : List PermissionId} {after : Expansion} (ahead : loop.implications = id :: rest)
    (added : loop.expansion.add registry id = .ok after) :
    Turn registry loop (.ok (some { loop with implications := rest, expansion := after }))
  | lookFails {id : PermissionId} {rest : List PermissionId} {error : RegistryError}
    (ahead : loop.implications = id :: rest) (failed : loop.expansion.add registry id = .error error) :
    Turn registry loop (.error error)
  | pop {id : PermissionId} {pending : List PermissionId} (looked : loop.implications = [])
    (top : loop.expansion.pending = id :: pending) :
    Turn registry loop (.ok (some { loop with
      implications := registry.implied id
      expansion := { loop.expansion with pending := pending } }))
  | proceed {id : PermissionId} {rest : List PermissionId} {after : Expansion} (looked : loop.implications = [])
    (settled : loop.expansion.pending = []) (ahead : loop.given = id :: rest)
    (added : loop.expansion.add registry id = .ok after) :
    Turn registry loop (.ok (some { loop with given := rest, expansion := after }))
  | proceedFails {id : PermissionId} {rest : List PermissionId} {error : RegistryError}
    (looked : loop.implications = []) (settled : loop.expansion.pending = []) (ahead : loop.given = id :: rest)
    (failed : loop.expansion.add registry id = .error error) : Turn registry loop (.error error)
  | stop (looked : loop.implications = []) (settled : loop.expansion.pending = []) (done : loop.given = []) :
    Turn registry loop (.ok none)

theorem step_turn (registry : Registry) (loop : ExpansionLoop) : Turn registry loop (loop.step registry) := by
  unfold step
  split
  · next id rest ahead =>
    cases added : loop.expansion.add registry id with
    | ok after => exact .look ahead added
    | error error => exact .lookFails ahead added
  next looked =>
  split
  · next id pending top => exact .pop looked top
  next settled =>
  split
  · next id rest ahead =>
    cases added : loop.expansion.add registry id with
    | ok after => exact .proceed looked settled ahead added
    | error error => exact .proceedFails looked settled ahead added
  · next done => exact .stop looked settled done

theorem Turn.of_step {outcome : Except RegistryError (Option ExpansionLoop)} (stepped : loop.step registry = outcome) :
    Turn registry loop outcome :=
  stepped ▸ step_turn registry loop

/-- What is pending has been found, what has been found is registered, and just that has been put on the stack, each
once. -/
structure Tidy (registry : Registry) (pushed : List PermissionId) (expansion : Expansion) : Prop where
  distinct : expansion.pending.Nodup
  found : ∀ id ∈ expansion.pending, id ∈ expansion.expanded
  registered : ∀ id ∈ expansion.expanded, id ∈ registry
  once : pushed.Nodup
  mem_iff : ∀ id, id ∈ pushed ↔ id ∈ expansion.expanded

theorem add_eq_ok (added : expansion.add registry id = .ok after) :
    id ∈ registry ∧ (after = expansion ∨
      id ∉ expansion.expanded ∧ after = ⟨expansion.expanded.insert id, id :: expansion.pending⟩) := by
  unfold Expansion.add at added
  grind

theorem Tidy.add (tidy : Tidy registry pushed expansion) (added : expansion.add registry id = .ok after) :
    Tidy registry (placed expansion.pending after.pending ++ pushed) after := by
  obtain ⟨known, rfl | ⟨unfound, rfl⟩⟩ := add_eq_ok added
  · rwa [placed_of_length_le (Nat.le_refl _), List.nil_append]
  · obtain ⟨distinct, found, registered, once, mem_iff⟩ := tidy
    rw [placed_cons id rfl, List.singleton_append]
    refine ⟨List.nodup_cons.mpr ⟨fun waiting => unfound (found id waiting), distinct⟩, ?_, ?_,
      List.nodup_cons.mpr ⟨fun again => unfound ((mem_iff id).mp again), once⟩, fun other => ?_⟩
    · intro other waiting
      rcases List.mem_cons.mp waiting with rfl | waiting
      · simp
      · exact Std.ExtTreeSet.mem_insert.mpr (.inr (found other waiting))
    · intro other member
      rcases Std.ExtTreeSet.mem_insert.mp member with same | earlier
      · exact Std.compare_eq_iff_eq.mp same ▸ known
      · exact registered other earlier
    · simp only [List.mem_cons, mem_iff, Std.ExtTreeSet.mem_insert, Std.compare_eq_iff_eq, eq_comm (a := other)]

theorem Tidy.step (tidy : Tidy registry pushed loop.expansion) (stepped : loop.step registry = .ok (some next)) :
    Tidy registry (placed loop.stack next.stack ++ pushed) next.expansion := by
  cases Turn.of_step stepped with
  | look _ added => exact tidy.add added
  | @pop id pending _ top =>
    obtain ⟨distinct, found, registered, once, mem_iff⟩ := tidy
    rw [top] at distinct found
    rw [placed_of_length_le (by simp [stack, top]), List.nil_append]
    exact ⟨(List.nodup_cons.mp distinct).2, fun other waiting => found other (List.mem_cons_of_mem _ waiting),
      registered, once, mem_iff⟩
  | proceed _ _ _ added => exact tidy.add added

theorem Comes.tidy (comes : Comes registry ids count pushed loop) : Tidy registry pushed loop.expansion := by
  induction comes with
  | start => constructor <;> simp [start, stack, Expansion.start]
  | next _ stepped ih => exact ih.step stepped

/-- An iteration for each permission and each implication that is still to be looked at, now or later. -/
def work (registry : Registry) (loop : ExpansionLoop) : Nat :=
  loop.given.length + loop.implications.length + Registry.weight registry.implied loop.expansion.pending +
    Registry.weight registry.implied (loop.expansion.unfound registry)

theorem weight_add_le (added : expansion.add registry id = .ok after) :
    Registry.weight registry.implied after.pending + Registry.weight registry.implied (after.unfound registry) ≤
      Registry.weight registry.implied expansion.pending +
        Registry.weight registry.implied (expansion.unfound registry) := by
  obtain ⟨known, rfl | ⟨unfound, rfl⟩⟩ := add_eq_ok added
  · exact Nat.le_refl _
  · have freed : Registry.weight registry.implied
          (Expansion.unfound registry ⟨expansion.expanded.insert id, id :: expansion.pending⟩) +
        ((registry.implied id).length + 1) ≤ Registry.weight registry.implied (expansion.unfound registry) := by
      refine Registry.weight_filter_add_le ?_ (Registry.mem_ids.mpr known) ?_ ?_
      · intro other _ notFound
        simp only [Std.ExtTreeSet.mem_insert, decide_eq_true_eq] at notFound ⊢
        grind
      · simpa using unfound
      · simp
    rw [Registry.weight_cons]
    omega

theorem work_step_lt (stepped : loop.step registry = .ok (some next)) : next.work registry < loop.work registry := by
  cases Turn.of_step stepped with
  | look ahead added =>
    have kept := weight_add_le added
    simp only [work, ahead, List.length_cons]
    omega
  | @pop id pending looked top =>
    have same : Expansion.unfound registry ⟨loop.expansion.expanded, pending⟩ = loop.expansion.unfound registry := rfl
    simp only [work, looked, top, same, Registry.weight_cons, List.length_nil]
    omega
  | proceed looked settled ahead added =>
    have kept := weight_add_le added
    simp only [work, ahead, List.length_cons]
    omega

theorem work_start (registry : Registry) (ids : List PermissionId) :
    (start ids).work registry = ids.length + registry.extent registry.implied := by
  have whole : Expansion.unfound registry .start = registry.ids := by simp [Expansion.unfound, Expansion.start]
  simp only [work, start, whole, Registry.weight_ids, List.length_nil]
  rfl

theorem run_of_settled (settled : expansion.pending = []) : expansion.run registry = .ok expansion :=
  run_of_end (by rw [Expansion.step, settled])

/-- The permission found last is expanded first, and then the rest of what is pending. -/
theorem run_of_pending {pending : List PermissionId} (top : expansion.pending = id :: pending) :
    expansion.run registry = (do
      let looked ← (registry.implied id).foldlM (Expansion.add registry) { expansion with pending := pending }
      looked.run registry) := by
  cases looked : (registry.implied id).foldlM (Expansion.add registry) { expansion with pending := pending } with
  | error error =>
    have failed : expansion.step registry = .error error := by
      rw [Expansion.step, top]
      dsimp only
      rw [looked]
      rfl
    rw [run_of_error failed]
    rfl
  | ok after =>
    have stepped : expansion.step registry = .ok (some after) := by
      rw [Expansion.step, top]
      dsimp only
      rw [looked]
      rfl
    rw [run_of_step stepped]
    rfl

theorem remainder_of_settled (looked : loop.implications = []) (settled : loop.expansion.pending = []) :
    loop.remainder registry = (do
      let last ← loop.given.foldlM (close registry) loop.expansion
      return last.expanded) := by
  rw [remainder, looked, List.foldlM_nil, pure_bind, run_of_settled settled]
  rfl

theorem remainder_of_step (stepped : loop.step registry = .ok (some next)) :
    loop.remainder registry = next.remainder registry := by
  cases Turn.of_step stepped with
  | look ahead added =>
    rw [remainder, ahead, List.foldlM_cons, added]
    rfl
  | pop looked top =>
    rw [remainder, looked, List.foldlM_nil, pure_bind, run_of_pending top, bind_assoc]
    rfl
  | proceed looked settled ahead added =>
    rw [remainder_of_settled looked settled, ahead, List.foldlM_cons, Expansion.close, added, bind_assoc, remainder,
      looked]
    rfl

theorem remainder_of_end (ended : loop.step registry = .ok none) :
    loop.remainder registry = .ok loop.expansion.expanded := by
  cases Turn.of_step ended with
  | stop looked settled done =>
    rw [remainder_of_settled looked settled, done]
    rfl

theorem remainder_of_error (failed : loop.step registry = .error error) : loop.remainder registry = .error error := by
  cases Turn.of_step failed with
  | lookFails ahead failed =>
    rw [remainder, ahead, List.foldlM_cons, failed]
    rfl
  | proceedFails looked settled ahead failed =>
    rw [remainder_of_settled looked settled, ahead, List.foldlM_cons, Expansion.close, failed]
    rfl

theorem expandImplied_endsWithin (registry : Registry) (ids : List PermissionId) :
    EndsWithin (step registry) stack (start ids) (fun last => last.expansion.expanded)
      (ids.length + registry.extent registry.implied) (registry.expandImplied ids) := by
  have whole : registry.expandImplied ids = (start ids).remainder registry := by
    rw [remainder, start, List.foldlM_nil, pure_bind, run_of_settled rfl]
    rfl
  rw [whole, ← work_start]
  exact endsWithin_of_work (fun _ _ => work_step_lt) (fun _ _ => remainder_of_step) (fun _ => remainder_of_end)
    (fun _ _ => remainder_of_error) stack _

end ExpansionLoop

namespace Registry

/-- However the edges run, whatever has been put on a stack is registered and has been put there once, so both walks end
and need no more iterations than there is to look at. -/
theorem walks_bounded (registry : Registry) :
    (∀ origin ∈ registry,
      (∀ count pushed walk, DependencyWalk.Comes registry origin count pushed walk →
        DependencyWalk.Orderly registry origin pushed walk ∧ count ≤ registry.extent registry.dependencies) ∧
      EndsWithin (DependencyWalk.step registry) DependencyWalk.stack (.start registry origin)
        (fun last => last.resolved.reverse) (registry.extent registry.dependencies)
        (registry.resolveDependencies origin)) ∧
    (∀ origin, origin ∉ registry → registry.resolveDependencies origin = .error (.unknownPermission origin)) ∧
    ∀ ids,
      (∀ count pushed loop, ExpansionLoop.Comes registry ids count pushed loop →
        ExpansionLoop.Tidy registry pushed loop.expansion ∧
          count ≤ ids.length + registry.extent registry.implied) ∧
      EndsWithin (ExpansionLoop.step registry) ExpansionLoop.stack (.start ids) (fun last => last.expansion.expanded)
        (ids.length + registry.extent registry.implied) (registry.expandImplied ids) := by
  refine ⟨fun origin registered => ⟨fun count pushed walk comes => ⟨comes.orderly registered, ?_⟩,
    DependencyWalk.resolveDependencies_endsWithin registered⟩, fun _ => resolveDependencies_of_not_mem,
    fun ids => ⟨fun count pushed loop comes => ⟨comes.tidy, ?_⟩, ExpansionLoop.expandImplied_endsWithin registry ids⟩⟩
  · have counted := comes.count_add_le fun _ _ => DependencyWalk.work_step_lt
    have bound := DependencyWalk.work_start_le registered
    omega
  · have counted := comes.count_add_le fun _ _ => ExpansionLoop.work_step_lt
    rw [ExpansionLoop.work_start] at counted
    omega

/-- Two permissions that depend on each other and imply each other. -/
def ring : Registry :=
  (empty.insert { id := "open", moduleName := "doors", dependsOn := ["close"], implies := ["close"] }).insert
    { id := "close", moduleName := "doors", dependsOn := ["open"], implies := ["open"] }

theorem mem_of_ring_implies {id target : PermissionId} (edge : ring.Implies id target) : target ∈ ring := by
  have forward : ring.implied "open" = ["close"] := by decide
  have back : ring.implied "close" = ["open"] := by decide
  have known : "close" = id ∨ "open" = id := by simpa [ring] using mem_of_implies edge
  rcases known with rfl | rfl
  · rw [Implies, back, List.mem_singleton] at edge
    exact edge ▸ by decide
  · rw [Implies, forward, List.mem_singleton] at edge
    exact edge ▸ by decide

theorem ring_bounded :
    "open" ∈ ring ∧
      (∃ count pushed last, DependencyWalk.Comes ring "open" count pushed last ∧ count ≤ 4 ∧
        (∃ error, last.step ring = .error error) ∧ DependencyWalk.Orderly ring "open" pushed last) ∧
      ∃ count pushed last, ExpansionLoop.Comes ring ["open", "close"] count pushed last ∧ count ≤ 6 ∧
        ExpansionLoop.Tidy ring pushed last.expansion ∧
        ring.expandImplied ["open", "close"] = .ok last.expansion.expanded := by
  have registered : "open" ∈ ring := by decide
  have forward : "close" ∈ ring.dependencies "open" := by decide
  have back : "open" ∈ ring.dependencies "close" := by decide
  have cycle : ring.OnCycle "open" := .tail (.single forward) back
  obtain ⟨expanded, expands⟩ : ∃ expanded, ring.expandImplied ["open", "close"] = .ok expanded := by
    refine expandable_iff.mpr fun found implied => ?_
    obtain ⟨root, given, path⟩ := implied
    rcases path.cases_tail with rfl | ⟨_, _, edge⟩
    · exact (by decide : ∀ id ∈ ["open", "close"], id ∈ ring) _ given
    · exact mem_of_ring_implies edge
  have extents : ring.extent ring.dependencies = 4 ∧ ring.extent ring.implied = 4 := by decide +kernel
  obtain ⟨walks, _, expansions⟩ := walks_bounded ring
  obtain ⟨orderly, ends⟩ := walks "open" registered
  obtain ⟨tidy, settles⟩ := expansions ["open", "close"]
  rw [extents.1] at ends
  rw [expands, extents.2] at settles
  refine ⟨registered, ?_, ?_⟩
  · obtain ⟨count, pushed, last, comes, counted, ⟨_, listed⟩ | ⟨error, failed, _⟩⟩ := ends
    · exact absurd cycle (resolvable_iff.mpr ⟨_, listed⟩).acyclic.1
    · exact ⟨count, pushed, last, comes, counted, ⟨error, failed⟩, (orderly count pushed last comes).1⟩
  · obtain ⟨count, pushed, last, comes, counted, ⟨_, same⟩ | ⟨_, _, failed⟩⟩ := settles
    · exact ⟨count, pushed, last, comes, counted, (tidy count pushed last comes).1, expands.trans same⟩
    · cases failed

end Registry

end AccessControl
