import AccessControl.Proofs.Access.Authorization
import AccessControl.Proofs.Access.Loaded

/-!
Grants as a loader returns them, and what is decided about them. A check does not ask whether the grants satisfy a
permission, but goes through the reasons for which they may not, to be able to name one. Grants that are withheld would
come out differently if they held anything, and no loader returns such grants.
-/

namespace AccessControl

/-- What every loader sees to: grants that are not to be looked at are empty, and all others are closed. -/
structure UserGrants.WellFormed (grants : UserGrants) (registry : Registry) (user : UserId) : Prop where
  owner : grants.userId = user
  apart : ¬ (grants.isRoot = true ∧ grants.verificationPending = true)
  empty : grants.isRoot = true ∨ grants.verificationPending = true → grants.permissions = ∅
  registered : ∀ id ∈ grants.permissions, id ∈ registry
  closed : ∀ id ∈ grants.permissions, ∀ target, registry.Implies id target → target ∈ grants.permissions

namespace Loader

variable {loader : Loader} {user : UserId} {grants : UserGrants}

/-- The grants are what the loader returns for the user, everywhere or on some resource at some time. -/
def Returns (loader : Loader) (user : UserId) (grants : UserGrants) : Prop :=
  (loader.load user).result = .ok grants ∨
    ∃ resourceType resourceId now, (loader.loadForResource user resourceType resourceId now).result = .ok grants

theorem perform_of_result {loading : Loading α} {value : α} (returned : loading.result = .ok value) :
    ∃ later, loading.perform .zero = (.ok value, later) :=
  ⟨_, Prod.ext returned rfl⟩

theorem Returns.loaded (returns : loader.Returns user grants) : loader.Loaded user grants := by
  rcases returns with everywhere | ⟨resourceType, resourceId, now, here⟩
  · obtain ⟨later, performed⟩ := perform_of_result everywhere
    exact load_loaded performed
  · obtain ⟨later, performed⟩ := perform_of_result here
    exact loadForResource_loaded performed

theorem Loaded.wellFormed (loaded : loader.Loaded user grants) : grants.WellFormed loader.registry user := by
  cases loaded with
  | root => constructor <;> simp [UserGrants.root]
  | pending => constructor <;> simp [UserGrants.pending]
  | granted found notRoot verified closed registered =>
    exact ⟨rfl, by simp [UserGrants.granted], by simp [UserGrants.granted], registered, closed⟩

end Loader

/-- The decision about a permission with these dependencies is to allow what the grants satisfy. Its reason is the first
that there is, and what is missing is listed where that is the reason. -/
structure Decision.Reflects (decision : Decision) (grants : UserGrants) (permission : PermissionId)
    (dependencies : List PermissionId) : Prop where
  about : decision.permission = permission
  allowed : decision.allowed = grants.satisfies permission dependencies
  pending : decision.reason = .verificationPending ↔ grants.verificationPending = true
  notGranted : decision.reason = .notGranted ↔
    grants.verificationPending = false ∧ grants.holds permission = false
  lacking : decision.reason = .missingDependencies ↔
    grants.verificationPending = false ∧ grants.holds permission = true ∧ grants.missing dependencies ≠ []
  granted : decision.reason = .granted ↔
    grants.verificationPending = false ∧ grants.holds permission = true ∧ grants.missing dependencies = []
  missing : decision.missing = if decision.reason = .missingDependencies then grants.missing dependencies else []

namespace Checker

variable {checker : Checker} {user : UserId} {grants : UserGrants} {permission : PermissionId}
  {dependencies : List PermissionId} {decision : Decision}

theorem reflects_of_decide (notRoot : grants.isRoot = false)
    (withheld : grants.verificationPending = true → grants.permissions = ∅)
    (resolved : checker.registry.resolveDependencies permission = .ok dependencies)
    (decided : checker.decide grants permission = .ok decision) :
    decision.Reflects grants permission dependencies := by
  rw [decide_resolved notRoot resolved, Except.ok.injEq] at decided
  cases pending : grants.verificationPending with
  | true =>
    -- Only here does it matter that nothing is held: the check does not look at it.
    have nothing : grants.holds permission = false := by simp [UserGrants.holds, withheld pending]
    rw [if_pos pending] at decided
    subst decided
    constructor <;> simp [Decision.of, Reason.isAllowed, UserGrants.satisfies, pending, notRoot, nothing]
  | false =>
    rw [if_neg (by simp [pending])] at decided
    cases held : grants.holds permission with
    | false =>
      rw [if_neg (by simp [held])] at decided
      subst decided
      constructor <;> simp [Decision.of, Reason.isAllowed, UserGrants.satisfies, pending, notRoot, held]
    | true =>
      rw [if_pos held] at decided
      subst decided
      cases lacking : grants.missing dependencies with
      | nil =>
        constructor <;> simp [Decision.ofMissing, Decision.of, Reason.isAllowed, UserGrants.satisfies, pending, notRoot,
          held, lacking]
      | cons first others =>
        constructor <;> simp [Decision.ofMissing, Decision.missingDependencies, Decision.of, Reason.isAllowed,
          UserGrants.satisfies, pending, notRoot, held, lacking]

/-- All grants that are loaded are well formed, and whatever is decided about them is what they satisfy. -/
theorem decides_by_satisfaction (checker : Checker) (returns : checker.loader.Returns user grants) :
    grants.WellFormed checker.registry user ∧
    ∀ permission decision, checker.decide grants permission = .ok decision →
      (grants.isRoot = true → decision.allowed = true ∧ decision.reason = .root ∧ decision.missing = []) ∧
      (grants.isRoot = false → ∃ dependencies, checker.registry.resolveDependencies permission = .ok dependencies ∧
        decision.Reflects grants permission dependencies) := by
  have wellFormed : grants.WellFormed checker.registry user := returns.loaded.wellFormed
  refine ⟨wellFormed, fun permission decision decided => ⟨fun isRoot => ?_, fun notRoot => ?_⟩⟩
  · rw [decide_root isRoot] at decided
    cases decided
    exact ⟨rfl, rfl, rfl⟩
  · obtain ⟨dependencies, resolved⟩ := Registry.resolvable_iff.mp (resolvable_of_decide notRoot decided)
    exact ⟨dependencies, resolved,
      reflects_of_decide notRoot (fun pending => wellFormed.empty (.inr pending)) resolved decided⟩

/-- The team may edit the document, which its member has with all that it implies, and so it is allowed. -/
theorem writer_satisfied :
    ∃ grants decision, writersChecker.loader.Returns "ann" grants ∧ grants.WellFormed .editing "ann" ∧
      writersChecker.decide grants "edit" = .ok decision ∧ decision.allowed = true ∧
      ∃ dependencies, Registry.editing.resolveDependencies "edit" = .ok dependencies ∧
        decision.Reflects grants "edit" dependencies := by
  have present : writers.facts.principal "ann" = some writer := by decide
  have verified : ¬ writers.facts.Pending true writer := fun pending => absurd pending.2.1 (by decide)
  have entitles : Registry.editing.Entitles
      (writer.permissions ∪ writers.facts.permissionsOn "ann" "doc" "7" 8 writer) "edit" :=
    Registry.editing_entitles fun id => (writers_held 8 id).trans (and_iff_right (by decide))
  obtain ⟨outcome, settles, shape⟩ :=
    writersChecker.loader.loadForResource_outcome writers.source_tells "ann" "doc" "7" 8
  obtain ⟨later, performed, -⟩ := settles .zero
  have loads := (shape.resolve_right fun refused => refused.1 (writers.answers _ _)).2
  rcases loads.eq_granted present rfl verified with ⟨permissions, rfl, closure, known⟩ | ⟨culprit, implied, missing, -⟩
  · have returns : writersChecker.loader.Returns "ann" (.granted "ann" writer.teamIds permissions) :=
      .inr ⟨"doc", "7", 8, congrArg Prod.fst performed⟩
    obtain ⟨decision, decided, allowed⟩ :=
      (decide_granted_iff closure fun id member => known id ((closure id).mp member)).mpr entitles
    obtain ⟨wellFormed, agree⟩ := decides_by_satisfaction writersChecker returns
    exact ⟨_, decision, returns, wellFormed, decided, allowed, (agree "edit" decision decided).2 rfl⟩
  · exact absurd (entitles.known culprit implied) missing

end Checker

end AccessControl
