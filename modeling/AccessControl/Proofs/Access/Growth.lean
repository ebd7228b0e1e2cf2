import AccessControl.Proofs.Access.Authorization
import AccessControl.Proofs.Access.Failures

namespace AccessControl

namespace StoreFacts

variable {facts later : StoreFacts} {registry : Registry} {enforced : Bool} {user : UserId} {permission : PermissionId}
  {extra more : Principal → Set PermissionId} {principal after : Principal}

/-- Nothing that speaks for the one principal is missing for the other. -/
structure Outgrows (facts later : StoreFacts) (enforced : Bool) (extra more : Principal → Set PermissionId)
    (principal after : Principal) : Prop where
  root : principal.isRoot = true → after.isRoot = true
  pending : later.Pending enforced after → facts.Pending enforced principal
  held : principal.permissions ∪ extra principal ⊆ after.permissions ∪ more after

/-- The user, if there is one, is still there and has lost nothing. -/
def Grows (facts later : StoreFacts) (enforced : Bool) (user : UserId) (extra more : Principal → Set PermissionId) :
    Prop :=
  ∀ principal, facts.principal user = some principal →
    ∃ after, later.principal user = some after ∧ facts.Outgrows later enforced extra more principal after

/-- Within one state what is granted besides the roles makes more of them. -/
theorem Grows.of_subset (more_of : ∀ principal, extra principal ⊆ more principal) :
    facts.Grows facts enforced user extra more :=
  fun principal present =>
    ⟨principal, present, id, id, Set.union_subset_union_right _ (more_of principal)⟩

theorem Grows.outgrows (grows : facts.Grows later enforced user extra more)
    (before : facts.principal user = some principal) (present : later.principal user = some after) :
    facts.Outgrows later enforced extra more principal after := by
  obtain ⟨found, same, outgrows⟩ := grows principal before
  obtain rfl : after = found := Option.some.inj (present.symm.trans same)
  exact outgrows

/-- Only that the answer can be given at all does not follow from what was allowed before: what has come to be held
may imply what is not registered. -/
theorem Allows.grow (allows : facts.Allows registry enforced user extra permission)
    (grows : facts.Grows later enforced user extra more)
    (answerable : later.Answerable registry enforced user more permission) :
    later.Allows registry enforced user more permission := by
  obtain ⟨principal, before, allowed⟩ := allows
  obtain ⟨after, present, answers⟩ := answerable
  have outgrows := grows.outgrows before present
  refine ⟨after, present, ?_⟩
  rcases answers with isRoot | ⟨loadable, resolvable⟩
  · exact .inl isRoot
  · rcases allowed with isRoot | ⟨verified, entitles⟩
    · exact .inl (outgrows.root isRoot)
    · have stillVerified : ¬ later.Pending enforced after := fun pending => verified (outgrows.pending pending)
      exact .inr ⟨stillVerified, loadable stillVerified, resolvable,
        entitles.covered.trans (Registry.impliedBy_mono outgrows.held)⟩

end StoreFacts

namespace Checker

variable {checker before after : Checker} {facts later : StoreFacts} {times : ReadTimes} {user : UserId}
  {permission : PermissionId} {resourceType resourceId : String} {now : Timestamp} {enforced : Bool}
  {extra more : Principal → Set PermissionId} {outcome laterOutcome : Except LoadError UserGrants}
  {decision laterDecision : Decision} {grants laterGrants : UserGrants} {ids : List PermissionId}

theorem explain_eq_ok (tells : checker.source.Tells facts times) (inTime : checker.InTime times)
    (answered : checker.explain user permission = .ok decision) :
    ∃ outcome, facts.Loads checker.registry checker.config.enforceVerification user (fun _ => ∅) outcome ∧
      checker.decideLoaded permission outcome = .ok decision := by
  by_cases given : Given (globalArguments user permission)
  · obtain ⟨outcome, shape, result⟩ := explain_outcome tells inTime given
    exact ⟨outcome, shape, result.symm.trans answered⟩
  · obtain ⟨field, refused⟩ := checker.explain_of_blank given
    cases refused.symm.trans answered

theorem explainResource_eq_ok (tells : checker.source.Tells facts times) (inTime : checker.InTime times)
    (answered : checker.explainResource user resourceType resourceId permission now = .ok decision) :
    ∃ outcome, facts.Loads checker.registry checker.config.enforceVerification user
        (facts.permissionsOn user resourceType resourceId now) outcome ∧
      checker.decideLoaded permission outcome = .ok decision := by
  by_cases given : Given (resourceArguments user resourceType resourceId permission)
  · obtain ⟨outcome, ⟨_, shape⟩ | ⟨_, error, rfl⟩, result⟩ := explainResource_outcome tells inTime given now
    · exact ⟨outcome, shape, result.symm.trans answered⟩
    · cases result.symm.trans answered
  · obtain ⟨field, refused⟩ := checker.explainResource_of_blank given
    cases refused.symm.trans answered

theorem bind_eq_ok {outcome : Except ε α} {next : α → Except ε β} {value : β} (answered : outcome >>= next = .ok value) :
    ∃ between, outcome = .ok between ∧ next between = .ok value := by
  cases outcome with
  | error _ => cases answered
  | ok between => exact ⟨between, rfl, answered⟩

/-- What is listed are the permissions of grants that were loaded in time. -/
theorem listed_eq_ok {loading : Loading UserGrants} (inTime : checker.InTime times)
    (settles : Transition.Settles loading outcome times.total)
    (answered : (do return checker.effective (← checker.bounded loading)) = Except.ok ids) :
    ∃ grants, outcome = .ok grants ∧ ids = checker.effective grants := by
  rw [bounded_eq inTime settles] at answered
  obtain ⟨grants, loaded, listed⟩ := bind_eq_ok answered
  cases outcome with
  | error _ => cases loaded
  | ok found =>
    cases loaded
    exact ⟨grants, rfl, (Except.ok.inj listed).symm⟩

theorem userPermissions_eq_ok (tells : checker.source.Tells facts times) (inTime : checker.InTime times)
    (answered : checker.userPermissions user = .ok ids) :
    ∃ grants, facts.Loads checker.registry checker.config.enforceVerification user (fun _ => ∅) (.ok grants) ∧
      ids = checker.effective grants := by
  obtain ⟨outcome, settles, shape⟩ := checker.loader.load_outcome tells user
  have within : (times.principal + (times.verificationRequired + times.verification)).nanoseconds ≤
      times.total.nanoseconds := by simp [ReadTimes.total]
  obtain ⟨_, _, answered⟩ := bind_eq_ok answered
  obtain ⟨grants, rfl, listed⟩ := listed_eq_ok inTime (settles.mono within) answered
  exact ⟨grants, shape, listed⟩

theorem resourcePermissions_eq_ok (tells : checker.source.Tells facts times) (inTime : checker.InTime times)
    (answered : checker.resourcePermissions user resourceType resourceId now = .ok ids) :
    ∃ grants, facts.Loads checker.registry checker.config.enforceVerification user
        (facts.permissionsOn user resourceType resourceId now) (.ok grants) ∧ ids = checker.effective grants := by
  obtain ⟨outcome, settles, shape⟩ :=
    checker.loader.loadForResource_outcome tells user resourceType resourceId now
  obtain ⟨_, _, answered⟩ := bind_eq_ok answered
  obtain ⟨_, _, answered⟩ := bind_eq_ok answered
  obtain ⟨_, _, answered⟩ := bind_eq_ok answered
  obtain ⟨grants, rfl, listed⟩ := listed_eq_ok inTime settles answered
  rcases shape with ⟨_, shape⟩ | ⟨_, error, failed⟩
  · exact ⟨grants, shape, listed⟩
  · cases failed

theorem decideLoaded_grows (sameRegistry : after.registry = before.registry)
    (shape : facts.Loads before.registry enforced user extra outcome)
    (laterShape : later.Loads after.registry enforced user more laterOutcome)
    (grows : facts.Grows later enforced user extra more)
    (decided : before.decideLoaded permission outcome = .ok decision) (allowed : decision.allowed = true)
    (laterDecided : after.decideLoaded permission laterOutcome = .ok laterDecision) : laterDecision.allowed = true := by
  have allows := (decideLoaded_allowed_iff shape).mp ⟨decision, decided, allowed⟩
  rw [← sameRegistry] at allows
  have stillAllows := allows.grow grows (decideLoaded_answers laterShape laterDecided)
  obtain ⟨found, same, stillAllowed⟩ := (decideLoaded_allowed_iff laterShape).mpr stillAllows
  obtain rfl : laterDecision = found := Except.ok.inj (laterDecided.symm.trans same)
  exact stillAllowed

theorem effective_grows (sameRegistry : after.registry = before.registry)
    (shape : facts.Loads before.registry enforced user extra (.ok grants))
    (laterShape : later.Loads after.registry enforced user more (.ok laterGrants))
    (grows : facts.Grows later enforced user extra more) : before.effective grants ⊆ after.effective laterGrants := by
  intro id listed
  cases shape with
  | root present isRoot =>
    cases laterShape with
    | root => simpa [effective, sameRegistry] using listed
    | pending found notRoot | granted found notRoot =>
      simp [(grows.outgrows present found).root isRoot] at notRoot
  | pending => simp [effective, UserGrants.pending, UserGrants.sorted] at listed
  | @granted principal permissions present notRoot verified closure registered =>
    have held : id ∈ permissions := by simpa [effective, UserGrants.granted, UserGrants.sorted] using listed
    cases laterShape with
    | root => simpa [effective, sameRegistry] using registered id held
    | pending found _ pending => exact absurd ((grows.outgrows present found).pending pending) verified
    | granted found _ _ laterClosure =>
      have implied := Registry.impliedBy_mono (grows.outgrows present found).held ((closure id).mp held)
      rw [← sameRegistry] at implied
      simpa [effective, UserGrants.granted, UserGrants.sorted] using (laterClosure id).mpr implied

end Checker

end AccessControl
