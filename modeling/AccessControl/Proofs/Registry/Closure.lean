import AccessControl.Proofs.Registry.Graph
import AccessControl.Registry.Implications

/-!
The expansion of a list of permissions is the closure under implication, or it names a permission of that closure
that is not registered. The given permissions are expanded one after the other, and between two of them nothing
is pending: what has been found by then is closed, so each adds just its own closure.
-/

namespace AccessControl

open Relation

variable {registry : Registry} {ids : List PermissionId} {id found : PermissionId} {error : RegistryError}

namespace Expansion

variable {before between after next expansion : Expansion}

/-- All of `ids` are registered, and those not found before have been found and are pending. -/
structure Grows (registry : Registry) (ids : List PermissionId) (before after : Expansion) : Prop where
  registered : ∀ id ∈ ids, id ∈ registry
  expanded : ∀ found, found ∈ after.expanded ↔ found ∈ before.expanded ∨ found ∈ ids
  pending : ∀ found, found ∈ after.pending ↔ found ∈ before.pending ∨ found ∈ ids ∧ found ∉ before.expanded

theorem Grows.nil : Grows registry [] before before := by
  constructor <;> simp

theorem Grows.cons (first : Grows registry [id] before between) (rest : Grows registry ids between after) :
    Grows registry (id :: ids) before after where
  registered := by simpa using ⟨first.registered id List.mem_cons_self, rest.registered⟩
  expanded found := by
    rw [rest.expanded, first.expanded, List.mem_singleton, List.mem_cons, or_assoc]
  pending found := by
    rw [rest.pending, first.pending, first.expanded, List.mem_singleton, List.mem_cons]
    grind

theorem add_outcome (registry : Registry) (expansion : Expansion) (id : PermissionId) :
    (∃ after, expansion.add registry id = .ok after ∧ Grows registry [id] expansion after) ∨
      id ∉ registry ∧ expansion.add registry id = .error (.unknownPermission id) := by
  unfold add
  by_cases registered : id ∈ registry
  · left
    rw [if_pos registered]
    by_cases found : id ∈ expansion.expanded
    · rw [if_pos found]
      refine ⟨_, rfl, by simpa using registered, fun other => ?_, fun other => ?_⟩
      · grind
      · grind
    · rw [if_neg found]
      refine ⟨_, rfl, by simpa using registered, fun other => ?_, fun other => ?_⟩
      · simp [or_comm, eq_comm (a := id)]
      · grind
  · exact .inr ⟨registered, if_neg registered⟩

theorem foldlM_add_outcome (registry : Registry) (ids : List PermissionId) (expansion : Expansion) :
    (∃ after, ids.foldlM (add registry) expansion = .ok after ∧ Grows registry ids expansion after) ∨
      ∃ id ∈ ids, id ∉ registry ∧ ids.foldlM (add registry) expansion = .error (.unknownPermission id) := by
  induction ids generalizing expansion with
  | nil => exact .inl ⟨expansion, rfl, .nil⟩
  | cons first rest ih =>
    rw [List.foldlM_cons]
    rcases add_outcome registry expansion first with ⟨between, added, grown⟩ | ⟨missing, failed⟩
    · rw [added]
      rcases ih between with ⟨after, continued, further⟩ | ⟨id, member, missing, failed⟩
      · exact .inl ⟨after, continued, grown.cons further⟩
      · exact .inr ⟨id, List.mem_cons_of_mem _ member, missing, failed⟩
    · rw [failed]
      exact .inr ⟨first, List.mem_cons_self, missing, rfl⟩

/-- Nothing is pending, and what has been found is registered and closed under implication. -/
structure Complete (registry : Registry) (expansion : Expansion) : Prop where
  settled : expansion.pending = []
  registered : ∀ id ∈ expansion.expanded, id ∈ registry
  closed : ∀ id ∈ expansion.expanded, ∀ target, registry.Implies id target → target ∈ expansion.expanded

/-- While the closure of `id` is added to a complete expansion, only what `id` implies is new or pending. -/
structure Sound (registry : Registry) (before : Expansion) (id : PermissionId) (expansion : Expansion) : Prop where
  kept : ∀ found ∈ before.expanded, found ∈ expansion.expanded
  origin : id ∈ expansion.expanded
  registered : ∀ found ∈ expansion.expanded, found ∈ registry
  reached : ∀ found ∈ expansion.expanded, found ∈ before.expanded ∨ ReflTransGen registry.Implies id found
  pending : ∀ found ∈ expansion.pending, found ∈ expansion.expanded ∧ ReflTransGen registry.Implies id found
  explored : ∀ found ∈ expansion.expanded, found ∈ expansion.pending ∨
    ∀ target, registry.Implies found target → target ∈ expansion.expanded

theorem Complete.add_sound (complete : Complete registry before) (grown : Grows registry [id] before after) :
    Sound registry before id after := by
  obtain ⟨settled, registered, closed⟩ := complete
  have expanded : ∀ found, found ∈ after.expanded ↔ found ∈ before.expanded ∨ found = id := by
    simpa using grown.expanded
  refine ⟨fun found member => (expanded found).mpr (.inl member), (expanded id).mpr (.inr rfl), ?_, ?_, ?_, ?_⟩
  · intro found member
    rcases (expanded found).mp member with old | rfl
    · exact registered found old
    · exact grown.registered found List.mem_cons_self
  · intro found member
    rcases (expanded found).mp member with old | rfl
    · exact .inl old
    · exact .inr .refl
  · intro found waiting
    obtain ⟨rfl, _⟩ : found = id ∧ found ∉ before.expanded := by
      simpa [settled] using (grown.pending found).mp waiting
    exact ⟨(expanded found).mpr (.inr rfl), .refl⟩
  · intro found member
    by_cases old : found ∈ before.expanded
    · exact .inr fun target edge => (expanded target).mpr (.inl (closed found old target edge))
    · have same := ((expanded found).mp member).resolve_left old
      exact .inl ((grown.pending found).mpr (.inr ⟨List.mem_singleton.mpr same, old⟩))

theorem Sound.step (sound : Sound registry before id expansion)
    (stepped : expansion.step registry = .ok (some next)) : Sound registry before id next := by
  obtain ⟨kept, origin, registered, reached, pending, explored⟩ := sound
  unfold Expansion.step at stepped
  split at stepped
  · simp at stepped
  next current rest top =>
  rw [top] at pending explored
  obtain ⟨visited, path⟩ := pending current List.mem_cons_self
  rcases foldlM_add_outcome registry (registry.implied current) { expansion with pending := rest } with
    ⟨after, added, grown⟩ | ⟨_, _, _, failed⟩
  · obtain rfl : after = next := by simpa [added] using stepped
    have older : ∀ found ∈ expansion.expanded, found ∈ after.expanded :=
      fun found member => (grown.expanded found).mpr (.inl member)
    refine ⟨fun found member => older found (kept found member), older id origin, ?_, ?_, ?_, ?_⟩
    · intro found member
      rcases (grown.expanded found).mp member with old | new
      · exact registered found old
      · exact grown.registered found new
    · intro found member
      rcases (grown.expanded found).mp member with old | new
      · exact reached found old
      · exact .inr (path.tail new)
    · intro found waiting
      rcases (grown.pending found).mp waiting with waiting | ⟨new, _⟩
      · obtain ⟨member, path⟩ := pending found (List.mem_cons_of_mem _ waiting)
        exact ⟨older found member, path⟩
      · exact ⟨(grown.expanded found).mpr (.inr new), path.tail new⟩
    · intro found member
      by_cases old : found ∈ expansion.expanded
      · rcases explored found old with waiting | done
        · rcases List.mem_cons.mp waiting with rfl | waiting
          · exact .inr fun target edge => (grown.expanded target).mpr (.inr edge)
          · exact .inl ((grown.pending found).mpr (.inl waiting))
        · exact .inr fun target edge => older target (done target edge)
      · have new := ((grown.expanded found).mp member).resolve_left old
        exact .inl ((grown.pending found).mpr (.inr ⟨new, old⟩))
  · simp [failed] at stepped

theorem Sound.fault (sound : Sound registry before id expansion) (failed : expansion.step registry = .error error) :
    ∃ culprit, ReflTransGen registry.Implies id culprit ∧ culprit ∉ registry ∧
      error = .unknownPermission culprit := by
  unfold Expansion.step at failed
  split at failed
  · simp at failed
  next current rest top =>
  rcases foldlM_add_outcome registry (registry.implied current) { expansion with pending := rest } with
    ⟨after, added, _⟩ | ⟨culprit, edge, missing, stopped⟩
  · simp [added] at failed
  · have path := (sound.pending current (top ▸ List.mem_cons_self)).2
    exact ⟨culprit, path.tail edge, missing, by simpa [stopped] using failed.symm⟩

theorem Sound.complete (sound : Sound registry before id expansion) (ended : expansion.step registry = .ok none) :
    Complete registry expansion ∧
      ∀ found, found ∈ expansion.expanded ↔ found ∈ before.expanded ∨ ReflTransGen registry.Implies id found := by
  have settled : expansion.pending = [] := by
    unfold Expansion.step at ended
    split at ended
    · assumption
    · simp [Functor.map, Except.map] at ended
      split at ended <;> simp at ended
  have closed : ∀ found ∈ expansion.expanded, ∀ target, registry.Implies found target →
      target ∈ expansion.expanded := by
    intro found member
    simpa [settled] using sound.explored found member
  refine ⟨⟨settled, sound.registered, closed⟩, fun found => ⟨sound.reached found, ?_⟩⟩
  intro arrived
  rcases arrived with old | path
  · exact sound.kept found old
  · induction path with
    | refl => exact sound.origin
    | tail _ edge ih => exact closed _ ih _ edge

theorem run_of_error (failed : expansion.step registry = .error error) : expansion.run registry = .error error := by
  rw [run]
  grind

theorem run_of_end (ended : expansion.step registry = .ok none) : expansion.run registry = .ok expansion := by
  rw [run]
  grind

theorem run_of_step (stepped : expansion.step registry = .ok (some next)) :
    expansion.run registry = next.run registry := by
  rw [run]
  grind

theorem run_keeps {Keeps : Expansion → Prop}
    (keeps : ∀ expansion next, Keeps expansion → expansion.step registry = .ok (some next) → Keeps next)
    (holds : Keeps expansion) :
    ∃ last, Keeps last ∧
      (last.step registry = .ok none ∧ expansion.run registry = .ok last ∨
        ∃ error, last.step registry = .error error ∧ expansion.run registry = .error error) := by
  induction expansion using Expansion.run.induct registry with
  | case1 expansion error failed => exact ⟨expansion, holds, .inr ⟨error, failed, run_of_error failed⟩⟩
  | case2 expansion ended => exact ⟨expansion, holds, .inl ⟨ended, run_of_end ended⟩⟩
  | case3 expansion next stepped ih =>
    rw [run_of_step stepped]
    exact ih (keeps expansion next holds stepped)

theorem close_outcome (complete : Complete registry before) (id : PermissionId) :
    (∃ after, before.close registry id = .ok after ∧ Complete registry after ∧
      ∀ found, found ∈ after.expanded ↔ found ∈ before.expanded ∨ ReflTransGen registry.Implies id found) ∨
    ∃ culprit, ReflTransGen registry.Implies id culprit ∧ culprit ∉ registry ∧
      before.close registry id = .error (.unknownPermission culprit) := by
  unfold close
  rcases add_outcome registry before id with ⟨between, added, grown⟩ | ⟨missing, failed⟩
  · rw [added]
    obtain ⟨last, sound, ⟨ended, result⟩ | ⟨error, failed, result⟩⟩ :=
      run_keeps (fun _ _ => Sound.step) (complete.add_sound grown)
    · exact .inl ⟨last, result, sound.complete ended⟩
    · obtain ⟨culprit, path, missing, rfl⟩ := sound.fault failed
      exact .inr ⟨culprit, path, missing, result⟩
  · rw [failed]
    exact .inr ⟨id, .refl, missing, rfl⟩

/-- Either everything that the ids imply is registered and found, or the first id of which this is not so is at
fault. -/
theorem foldlM_close_outcome (complete : Complete registry before) (ids : List PermissionId) :
    (∃ after, ids.foldlM (close registry) before = .ok after ∧ Complete registry after ∧
      ∀ found, found ∈ after.expanded ↔ found ∈ before.expanded ∨ found ∈ registry.impliedBy {id | id ∈ ids}) ∨
    ∃ passed id rest culprit, ids = passed ++ id :: rest ∧
      (∀ found ∈ registry.impliedBy {id | id ∈ passed}, found ∈ registry) ∧
      ReflTransGen registry.Implies id culprit ∧ culprit ∉ registry ∧
      ids.foldlM (close registry) before = .error (.unknownPermission culprit) := by
  induction ids generalizing before with
  | nil => exact .inl ⟨before, rfl, complete, by simp [Registry.impliedBy]⟩
  | cons first rest ih =>
    rw [List.foldlM_cons]
    rcases close_outcome complete first with ⟨between, closed, complete, expanded⟩ | ⟨culprit, path, missing, failed⟩
    · rw [closed]
      rcases ih complete with ⟨after, result, complete, further⟩ | ⟨passed, id, rest, culprit, rfl, fine, fault⟩
      · refine .inl ⟨after, result, complete, fun found => ?_⟩
        rw [further, expanded, or_assoc]
        simp [Registry.impliedBy]
      · refine .inr ⟨first :: passed, id, rest, culprit, rfl, ?_, fault⟩
        intro found member
        obtain ⟨root, given, path⟩ := member
        rcases List.mem_cons.mp given with rfl | given
        · exact complete.registered found ((expanded found).mpr (.inr path))
        · exact fine found ⟨root, given, path⟩
    · rw [failed]
      exact .inr ⟨[], first, rest, culprit, rfl, by simp [Registry.impliedBy], path, missing, rfl⟩

theorem start_complete (registry : Registry) : Complete registry start where
  settled := rfl
  registered := by simp [start]
  closed := by simp [start]

end Expansion

namespace Registry

variable {expanded : PermissionSet}

theorem expandImplied_outcome (registry : Registry) (ids : List PermissionId) :
    (∃ expanded, registry.expandImplied ids = .ok expanded ∧ (∀ found ∈ expanded, found ∈ registry) ∧
      ∀ found, found ∈ expanded ↔ found ∈ registry.impliedBy {id | id ∈ ids}) ∨
    ∃ passed id rest culprit, ids = passed ++ id :: rest ∧
      (∀ found ∈ registry.impliedBy {id | id ∈ passed}, found ∈ registry) ∧
      ReflTransGen registry.Implies id culprit ∧ culprit ∉ registry ∧
      registry.expandImplied ids = .error (.unknownPermission culprit) := by
  unfold expandImplied
  rcases Expansion.foldlM_close_outcome (Expansion.start_complete registry) ids with
    ⟨after, result, complete, expanded⟩ | ⟨passed, id, rest, culprit, split, fine, path, missing, result⟩
  · rw [result]
    refine .inl ⟨after.expanded, rfl, complete.registered, fun found => ?_⟩
    rw [expanded found]
    exact ⟨fun member => member.resolve_left (by simp [Expansion.start]), .inr⟩
  · rw [result]
    exact .inr ⟨passed, id, rest, culprit, split, fine, path, missing, rfl⟩

theorem expandImplied_eq_ok (result : registry.expandImplied ids = .ok expanded) :
    (∀ found, found ∈ expanded ↔ found ∈ registry.impliedBy {id | id ∈ ids}) ∧
      ∀ found ∈ registry.impliedBy {id | id ∈ ids}, found ∈ registry := by
  rcases expandImplied_outcome registry ids with ⟨set, same, registered, members⟩ | ⟨_, _, _, _, _, _, _, _, failed⟩
  · obtain rfl : expanded = set := Except.ok.inj (result.symm.trans same)
    exact ⟨members, fun found member => registered found ((members found).mpr member)⟩
  · simp [result] at failed

theorem expandImplied_eq_error (failed : registry.expandImplied ids = .error error) :
    ∃ culprit ∈ registry.impliedBy {id | id ∈ ids}, culprit ∉ registry ∧ error = .unknownPermission culprit := by
  rcases expandImplied_outcome registry ids with ⟨_, same, _⟩ | ⟨_, id, _, culprit, rfl, _, path, missing, result⟩
  · simp [failed] at same
  · exact ⟨culprit, ⟨id, by simp, path⟩, missing, Except.error.inj (failed.symm.trans result)⟩

theorem expandable_iff :
    (∃ expanded, registry.expandImplied ids = .ok expanded) ↔
      ∀ found ∈ registry.impliedBy {id | id ∈ ids}, found ∈ registry := by
  constructor
  · intro success
    obtain ⟨expanded, result⟩ := success
    exact (expandImplied_eq_ok result).2
  · intro registered
    cases result : registry.expandImplied ids with
    | ok expanded => exact ⟨expanded, rfl⟩
    | error error =>
      obtain ⟨culprit, member, missing, _⟩ := expandImplied_eq_error result
      exact absurd (registered culprit member) missing

theorem expandImplied_eq_ok_iff :
    registry.expandImplied ids = .ok expanded ↔
      (∀ found ∈ registry.impliedBy {id | id ∈ ids}, found ∈ registry) ∧
        ∀ found, found ∈ expanded ↔ found ∈ registry.impliedBy {id | id ∈ ids} := by
  constructor
  · exact fun result => (expandImplied_eq_ok result).symm
  · intro known
    obtain ⟨registered, members⟩ := known
    obtain ⟨other, result⟩ := expandable_iff.mpr registered
    have same : other = expanded :=
      Std.ExtTreeSet.ext_mem fun found => ((expandImplied_eq_ok result).1 found).trans (members found).symm
    rw [result, same]

/-- Only which ids are given counts, not their order and not how often. -/
theorem expandImplied_congr {other : List PermissionId} (same : ∀ id, id ∈ ids ↔ id ∈ other)
    (result : registry.expandImplied ids = .ok expanded) : registry.expandImplied other = .ok expanded := by
  have given : {id | id ∈ ids} = {id | id ∈ other} := Set.ext same
  rw [expandImplied_eq_ok_iff] at result ⊢
  rwa [← given]

/-- What an expansion comes to: all that is implied, or a fault in what the first of the ids implies that has any. -/
inductive Expands (registry : Registry) (ids : List PermissionId) : Except RegistryError PermissionSet → Prop where
  | closed {expanded : PermissionSet} (mem_iff : ∀ found, found ∈ expanded ↔ found ∈ registry.impliedBy {id | id ∈ ids}) :
    Expands registry ids (.ok expanded)
  | unregistered {passed rest : List PermissionId} {first culprit : PermissionId} (split : ids = passed ++ first :: rest)
    (passedKnown : ∀ found ∈ registry.impliedBy {id | id ∈ passed}, found ∈ registry)
    (implied : culprit ∈ registry.impliedBy {first}) (missing : culprit ∉ registry) :
    Expands registry ids (.error (.unknownPermission culprit))

theorem expandImplied_expands (registry : Registry) (ids : List PermissionId) :
    registry.Expands ids (registry.expandImplied ids) := by
  rcases expandImplied_outcome registry ids with
    ⟨expanded, result, _, members⟩ | ⟨passed, first, rest, culprit, split, known, path, missing, result⟩
  · rw [result]
    exact .closed members
  · rw [result]
    exact .unregistered split known ⟨first, rfl, path⟩ missing

/-- The laws of a closure of lists, where that of some lists may not exist. -/
structure ClosureOperator (close : List PermissionId → Except RegistryError PermissionSet) : Prop where
  extensive : ∀ ids closure, close ids = .ok closure → ∀ id ∈ ids, id ∈ closure
  idempotent : ∀ ids closure, close ids = .ok closure → close closure.toList = .ok closure
  monotone : ∀ ids more closure larger, (∀ id ∈ ids, id ∈ more) → close ids = .ok closure → close more = .ok larger →
    ∀ id ∈ closure, id ∈ larger
  congruent : ∀ ids others, (∀ id, id ∈ ids ↔ id ∈ others) →
    ∀ closure, close ids = .ok closure ↔ close others = .ok closure
  append_exists : ∀ left right, (∃ closure, close (left ++ right) = .ok closure) ↔
    (∃ closure, close left = .ok closure) ∧ ∃ closure, close right = .ok closure
  append : ∀ left right closure other, close left = .ok closure → close right = .ok other →
    close (left ++ right) = .ok (closure ∪ other)

theorem impliedBy_append (left right : List PermissionId) :
    registry.impliedBy {id | id ∈ left ++ right} =
      registry.impliedBy {id | id ∈ left} ∪ registry.impliedBy {id | id ∈ right} := by
  rw [← impliedBy_union]
  congr 1
  ext id
  exact List.mem_append

theorem expandImplied_closes (registry : Registry) : ClosureOperator registry.expandImplied where
  extensive ids closure result id given := ((expandImplied_eq_ok result).1 id).mpr (subset_impliedBy given)
  idempotent ids closure result := by
    obtain ⟨members, registered⟩ := expandImplied_eq_ok result
    have again : registry.impliedBy {id | id ∈ closure.toList} = registry.impliedBy {id | id ∈ ids} := by
      have same : {id | id ∈ closure.toList} = registry.impliedBy {id | id ∈ ids} :=
        Set.ext fun id => Std.ExtTreeSet.mem_toList.trans (members id)
      rw [same, impliedBy_impliedBy]
    rw [expandImplied_eq_ok_iff, again]
    exact ⟨registered, members⟩
  monotone ids more closure larger subset result moreResult id member := by
    have implied := ((expandImplied_eq_ok result).1 id).mp member
    exact ((expandImplied_eq_ok moreResult).1 id).mpr (impliedBy_mono subset implied)
  congruent ids others same closure := ⟨expandImplied_congr same, expandImplied_congr fun id => (same id).symm⟩
  append_exists left right := by
    simp only [expandable_iff, impliedBy_append, Set.mem_union, or_imp, forall_and]
  append left right closure other result otherResult := by
    obtain ⟨members, registered⟩ := expandImplied_eq_ok result
    obtain ⟨otherMembers, otherRegistered⟩ := expandImplied_eq_ok otherResult
    rw [expandImplied_eq_ok_iff, impliedBy_append]
    refine ⟨fun found implied => implied.elim (registered found) (otherRegistered found), fun found => ?_⟩
    rw [Std.ExtTreeSet.mem_union_iff, members, otherMembers]
    rfl

/-- An expansion is the closure of the ids under implication, and exists if all that they imply is registered; else it
says what is not. -/
theorem expansion_is_closure (registry : Registry) :
    (∀ ids, ((∃ expanded, registry.expandImplied ids = .ok expanded) ↔
        ∀ found ∈ registry.impliedBy {id | id ∈ ids}, found ∈ registry) ∧
      registry.Expands ids (registry.expandImplied ids)) ∧
    ClosureOperator registry.expandImplied :=
  ⟨fun ids => ⟨expandable_iff, expandImplied_expands registry ids⟩, expandImplied_closes registry⟩

end Registry

end AccessControl
