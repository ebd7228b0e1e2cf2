import AccessControl.Proofs.Access.Failures
import AccessControl.Proofs.Registry.Validation

namespace AccessControl

open Checker (Given globalArguments resourceArguments)

structure StoreFacts.NamesRegistered (facts : StoreFacts) (registry : Registry) : Prop where
  roles : ∀ user principal, facts.principal user = some principal → ∀ id ∈ principal.permissions, id ∈ registry
  grants : ∀ grant ∈ facts.grants, grant.permission ∈ registry

namespace StoreFacts

variable {facts : StoreFacts} {registry : Registry} {enforced : Bool} {user : UserId} {principal : Principal}
  {extra : Principal → Set PermissionId} {permission : PermissionId} {resourceType resourceId : String}
  {now : Timestamp}

theorem NamesRegistered.permissionsOn (names : facts.NamesRegistered registry) {id : PermissionId}
    (granted : id ∈ facts.permissionsOn user resourceType resourceId now principal) : id ∈ registry := by
  obtain ⟨grant, held, _, _, _, _, rfl⟩ := granted
  exact names.grants grant held

theorem NamesRegistered.answerable (names : facts.NamesRegistered registry) (safe : registry.Safe)
    (present : facts.principal user = some principal) (more : ∀ id ∈ extra principal, id ∈ registry)
    (registered : permission ∈ registry) : facts.Answerable registry enforced user extra permission := by
  refine ⟨principal, present, .inr ⟨fun _ id => safe.mem_of_implied ?_, safe.resolvable registered⟩⟩
  intro root held
  rcases held with role | granted
  · exact names.roles user principal present root role
  · exact more root granted

end StoreFacts

namespace Registry

variable {registry : Registry}

theorem safe_iff_walks_end :
    registry.Safe ↔ ∀ id ∈ registry, (∃ list, registry.resolveDependencies id = .ok list) ∧
      ∃ expanded, registry.expandImplied [id] = .ok expanded := by
  have roots : ∀ id : PermissionId, {root | root ∈ [id]} = {id} := fun id => Set.ext fun root => List.mem_singleton
  simp only [safe_iff, resolvable_iff, expandable_iff, roots]

theorem walk_fails_of_not_safe (notSafe : ¬ registry.Safe) :
    ∃ id ∈ registry, (∃ error, registry.resolveDependencies id = .error error) ∨
      ∃ error, registry.expandImplied [id] = .error error := by
  by_contra none
  simp only [not_exists, not_and, not_or] at none
  refine notSafe (safe_iff_walks_end.mpr fun id registered => ?_)
  obtain ⟨resolves, expands⟩ := none id registered
  constructor
  · cases result : registry.resolveDependencies id with
    | ok list => exact ⟨list, rfl⟩
    | error error => exact absurd result (resolves error)
  · cases result : registry.expandImplied [id] with
    | ok expanded => exact ⟨expanded, rfl⟩
    | error error => exact absurd result (expands error)

end Registry

namespace Checker

variable {checker : Checker} {facts : StoreFacts} {times : ReadTimes} {user : UserId} {permission : PermissionId}
  {principal : Principal} {arguments : Arguments} {extra : Principal → Set PermissionId}

theorem Reports.answers {result : Except CheckError Decision} {enforced : Bool}
    (reports : Reports result (facts.Fails checker.registry enforced arguments user extra permission))
    (given : Given arguments) (answerable : facts.Answerable checker.registry enforced user extra permission) :
    ∃ decision, result = .ok decision := by
  cases result with
  | ok decision => exact ⟨decision, rfl⟩
  | error error => exact absurd answerable ((reports.error error rfl).not_answerable given)

theorem explain_answers (safe : checker.registry.Safe) (tells : checker.source.Tells facts times)
    (inTime : checker.InTime times) (names : facts.NamesRegistered checker.registry)
    (present : facts.principal user = some principal) (registered : permission ∈ checker.registry)
    (given : Given (globalArguments user permission)) : ∃ decision, checker.explain user permission = .ok decision :=
  (explain_reports tells inTime).answers given (names.answerable safe present (fun _ none => none.elim) registered)

theorem explainResource_answers {resourceType resourceId : String} {now : Timestamp} (safe : checker.registry.Safe)
    (tells : checker.source.Tells facts times) (inTime : checker.InTime times)
    (answers : facts.Answers checker.config.enforceVerification user)
    (names : facts.NamesRegistered checker.registry) (present : facts.principal user = some principal)
    (registered : permission ∈ checker.registry)
    (given : Given (resourceArguments user resourceType resourceId permission)) :
    ∃ decision, checker.explainResource user resourceType resourceId permission now = .ok decision :=
  (explainResource_reports tells inTime answers).answers given
    (names.answerable safe present (fun _ => names.permissionsOn) registered)

end Checker

/-- A registry is valid just when it is safe, which is when both walks end from everything registered. Then every
check of an existing user and a registered permission is answered; and if it is not valid some walk fails. -/
theorem Registry.validateGraph_guards (registry : Registry) :
    (registry.validateGraph = .ok () ↔ registry.Safe) ∧
    (registry.validateGraph = .ok () ↔ ∀ id ∈ registry, (∃ list, registry.resolveDependencies id = .ok list) ∧
      ∃ expanded, registry.expandImplied [id] = .ok expanded) ∧
    (registry.validateGraph = .ok () → ∀ (source : GrantSource) (config : CheckerConfig) (facts : StoreFacts)
      (times : ReadTimes), let checker : Checker := { registry, source, config }
      source.Tells facts times → checker.InTime times → facts.NamesRegistered registry →
      ∀ user permission, (facts.principal user).isSome = true → permission ∈ registry →
        (Given (globalArguments user permission) → ∃ decision, checker.explain user permission = .ok decision) ∧
        (facts.Answers config.enforceVerification user →
          ∀ resourceType resourceId now, Given (resourceArguments user resourceType resourceId permission) →
            ∃ decision, checker.explainResource user resourceType resourceId permission now = .ok decision)) ∧
    (∀ error, registry.validateGraph = .error error →
      ∃ id ∈ registry, (∃ fault, registry.resolveDependencies id = .error fault) ∨
        ∃ fault, registry.expandImplied [id] = .error fault) := by
  refine ⟨validateGraph_eq_ok_iff, validateGraph_eq_ok_iff.trans safe_iff_walks_end, ?_, ?_⟩
  · intro valid source config facts times checker tells inTime names user permission present registered
    have safe := validateGraph_eq_ok_iff.mp valid
    obtain ⟨principal, present⟩ := Option.isSome_iff_exists.mp present
    exact ⟨fun given => Checker.explain_answers safe tells inTime names present registered given,
      fun answers resourceType resourceId now given =>
        Checker.explainResource_answers safe tells inTime answers names present registered given⟩
  · intro error failed
    refine walk_fails_of_not_safe fun safe => ?_
    simp [validateGraph_eq_ok_iff.mpr safe] at failed

/-- Two editors: one by a role, one by a grant on a document. -/
def editors : MemoryStore :=
  { MemoryStore.empty with
    users := ((∅ : Std.ExtTreeMap UserId StoredUser).insert "ann" ⟨false, .oidc, {"editor"}⟩).insert "bob"
      ⟨false, .oidc, ∅⟩
    roles := (∅ : Std.ExtTreeMap RoleId StoredRole).insert "editor" ⟨"editor", {"edit"}⟩
    grants := [⟨⟨"doc", "7", ⟨.user, "bob"⟩, "edit"⟩, none⟩] }

theorem editors_namesRegistered : editors.facts.NamesRegistered .editing where
  roles user principal present id granted := by
    have ann : editors.facts.principal "ann" = some ⟨"ann", false, .oidc, [⟨"editor", "editor", ["edit"]⟩], []⟩ := by
      decide
    have bob : editors.facts.principal "bob" = some ⟨"bob", false, .oidc, [], []⟩ := by decide
    by_cases isAnn : user = "ann"
    · obtain rfl := Option.some.inj (ann.symm.trans (isAnn ▸ present))
      obtain rfl : id = "edit" := by simpa [Principal.permissions] using granted
      simp [Registry.editing]
    · by_cases isBob : user = "bob"
      · obtain rfl := Option.some.inj (bob.symm.trans (isBob ▸ present))
        simp [Principal.permissions] at granted
      · simp [MemoryStore.facts, MemoryStore.loadPrincipal, editors, Ne.symm isAnn, Ne.symm isBob] at present
  grants grant held := by
    obtain rfl : grant = ⟨⟨"doc", "7", ⟨.user, "bob"⟩, "edit"⟩, none⟩ := List.mem_singleton.mp held
    simp [Registry.editing]

/-- Editing with no reading to go with it. -/
def Registry.dangling : Registry :=
  empty.insert { id := "edit", moduleName := "docs", dependsOn := ["read"] }

theorem editing_guards :
    Registry.editing.validateGraph = .ok () ∧ editors.facts.NamesRegistered .editing ∧
      (∃ decision, Checker.explain { registry := .editing, source := Store.source editors } "ann" "read" =
        .ok decision) ∧
      (∃ decision, Checker.explainResource { registry := .editing, source := Store.source editors } "bob" "doc" "7"
        "edit" 0 = .ok decision) ∧
      Registry.dangling.validateGraph = .error (.missingDependency "edit" "read") ∧
      ∃ id ∈ Registry.dangling, (∃ fault, Registry.dangling.resolveDependencies id = .error fault) ∨
        ∃ fault, Registry.dangling.expandImplied [id] = .error fault := by
  have valid : Registry.editing.validateGraph = .ok () := Registry.validateGraph_eq_ok_iff.mpr Registry.editing_safe
  have invalid : Registry.dangling.validateGraph = .error (.missingDependency "edit" "read") := by decide
  have answered := (Registry.validateGraph_guards .editing).2.2.1 valid (Store.source editors) {} editors.facts
    .none editors.source_tells (fun limit _ => Nat.zero_le _) editors_namesRegistered
  refine ⟨valid, editors_namesRegistered, ?_, ?_, invalid,
    (Registry.validateGraph_guards .dangling).2.2.2 _ invalid⟩
  · exact (answered "ann" "read" (by decide) (by simp [Registry.editing])).1 (by unfold Given; decide)
  · exact (answered "bob" "edit" (by decide) (by simp [Registry.editing])).2 (editors.answers _ _) "doc" "7" 0
      (by unfold Given; decide)

end AccessControl
