import AccessControl.Access.Checker
import AccessControl.Proofs.Access.Loading

/-!
Checks on two stores that read alike. The order of the grants on a resource may differ between the stores, and with
it which fault of the registry is met first, but not whether there is one, and not what is answered if there is
none.
-/

namespace AccessControl

namespace Transition

/-- Both changes succeed alike or fail both, perhaps differently, and leave the same state. -/
def Alike (left right : Transition ε σ α) : Prop :=
  ∀ state, (left.perform state).1.toOption = (right.perform state).1.toOption ∧
    (left.perform state).2 = (right.perform state).2

theorem Alike.refl (change : Transition ε σ α) : Alike change change :=
  fun _ => ⟨rfl, rfl⟩

/-- What comes after need be alike only for what the first can give. -/
theorem Alike.bind {left right : Transition ε σ α} {next more : α → Transition ε σ β} (alike : Alike left right)
    (continues : ∀ state value, (left.perform state).1 = .ok value → Alike (next value) (more value)) :
    Alike (left >>= next) (right >>= more) := by
  intro state
  obtain ⟨sameOutcome, sameState⟩ := alike state
  have continues := continues state
  rw [perform_bind, perform_bind]
  generalize left.perform state = first at sameOutcome sameState continues ⊢
  generalize right.perform state = second at sameOutcome sameState ⊢
  obtain ⟨first, after⟩ := first
  obtain ⟨second, other⟩ := second
  cases sameState
  cases first with
  | error _ =>
    cases second with
    | error _ => exact ⟨rfl, rfl⟩
    | ok _ => cases sameOutcome
  | ok value =>
    cases second with
    | error _ => cases sameOutcome
    | ok again =>
      cases sameOutcome
      exact continues value rfl after

theorem alike_ofExcept {left right : Except ε α} (same : left.toOption = right.toOption) :
    Alike (ofExcept left : Transition ε σ α) (ofExcept right) := by
  intro state
  rw [perform_ofExcept, perform_ofExcept]
  exact ⟨same, rfl⟩

end Transition

open Transition

theorem toOption_mapError (outcome : Except ε α) (wrap : ε → δ) : (outcome.mapError wrap).toOption = outcome.toOption := by
  cases outcome <;> rfl

theorem toOption_bind (outcome : Except ε α) (next : α → Except ε β) :
    (outcome >>= next).toOption = outcome.toOption.bind fun value => (next value).toOption := by
  cases outcome <;> rfl

theorem Registry.expandImplied_toOption {registry : Registry} {ids others : List PermissionId}
    (same : ∀ id, id ∈ ids ↔ id ∈ others) :
    (registry.expandImplied ids).toOption = (registry.expandImplied others).toOption := by
  cases left : registry.expandImplied ids with
  | ok expanded => rw [expandImplied_congr same left]
  | error error =>
    cases right : registry.expandImplied others with
    | error _ => rfl
    | ok expanded =>
      have both := expandImplied_congr (fun id => (same id).symm) right
      simp [left] at both

/-- Every read gives the same on both stores, save that grants may be listed in another order. Grants are compared only
where there is room for the teams of the query. -/
structure Store.ReadsAgree [Store σ] [Store τ] (room : List TeamId → Prop) (left : σ) (right : τ) : Prop where
  principal : ∀ user, loadPrincipal left user = loadPrincipal right user
  verification : ∀ user, verification left user = verification right user
  verificationRequired : verificationRequired left = verificationRequired right
  listPermissions : listPermissions left = listPermissions right
  resourceGrants : ∀ query, room query.teamIds → ∃ found others, resourceGrants left query = .ok found ∧
    resourceGrants right query = .ok others ∧ found.Perm others

def Checker.on [Store σ] (registry : Registry) (config : CheckerConfig) (store : σ) : Checker :=
  { registry, config, source := Store.source store }

/-- A read that is answered at once leaves what is done with the answer. -/
theorem bind_load_ok (answer : α) (next : α → Loading β) :
    (Reading.load (.ofExcept (.ok answer)) >>= next) = next answer :=
  rfl

namespace Store

variable [Store σ] [Store τ] {left : σ} {right : τ} {facts : StoreFacts} {room : List TeamId → Prop}
  {registry : Registry} {config : CheckerConfig} {user : UserId} {resourceType resourceId : String}
  {permission : PermissionId} {now : Timestamp}

/-- Whoever is loaded and may do something that is not everything is the user with the user's teams. -/
theorem Gives.load_returns (gives : Gives left facts) {elapsed : Duration} {grants : UserGrants}
    (returned : (((Checker.on registry config left).loader.load user).perform elapsed).1 = .ok grants) :
    (grants.isRoot || grants.verificationPending) = true ∨
      ∃ principal, facts.principal user = some principal ∧ principal.isRoot = false ∧
        ¬ facts.Pending config.enforceVerification principal ∧ grants.userId = user ∧
        grants.teamIds = principal.teamIds := by
  obtain ⟨outcome, settles, shape⟩ :=
    (Checker.on registry config left).loader.load_outcome gives.tells user
  obtain ⟨_, performed, _⟩ := settles elapsed
  rw [performed] at returned
  cases shape with
  | missing => cases returned
  | root => cases returned; exact .inl rfl
  | pending => cases returned; exact .inl rfl
  | granted present notRoot verified => cases returned; exact .inr ⟨_, present, notRoot, verified, rfl, rfl⟩
  | unknown => cases returned

namespace ReadsAgree

theorem load (agree : ReadsAgree room left right) :
    (Checker.on registry config left).loader.load user = (Checker.on registry config right).loader.load user := by
  unfold Loader.load Loader.verificationPending
  simp only [Checker.loader, Checker.on, source, agree.principal, agree.verification, agree.verificationRequired]
  rfl

theorem expandGrants (agree : ReadsAgree room left right) (grants : UserGrants)
    (enough : (grants.isRoot || grants.verificationPending) = false → room grants.teamIds) :
    Alike ((Checker.on registry config left).loader.resourcePermissions grants resourceType resourceId now)
      ((Checker.on registry config right).loader.resourcePermissions grants resourceType resourceId now) := by
  unfold Loader.resourcePermissions
  by_cases withheld : (grants.isRoot || grants.verificationPending) = true
  · rw [if_pos withheld, if_pos withheld]
    exact .refl _
  · rw [if_neg withheld, if_neg withheld]
    obtain ⟨found, others, foundLeft, foundRight, perm⟩ := agree.resourceGrants
      { resourceType, resourceId, userId := grants.userId, teamIds := grants.teamIds, now }
      (enough (Bool.eq_false_iff.mpr withheld))
    have same : ∀ id, id ∈ (found.filter fun grant => grant.isActive now).map (fun grant => grant.permission) ↔
        id ∈ (others.filter fun grant => grant.isActive now).map fun grant => grant.permission :=
      fun id => ((perm.filter _).map _).mem_iff
    simp only [Checker.loader, Checker.on, source, foundLeft, foundRight, bind_load_ok]
    refine alike_ofExcept ?_
    rw [toOption_mapError, toOption_mapError]
    exact Registry.expandImplied_toOption same

/-- The facts of one of the stores say whose grants can be asked for. -/
theorem loadForResource (agree : ReadsAgree (fun teamIds => facts.refusal teamIds = none) left right)
    (gives : Gives right facts) (answers : facts.Answers config.enforceVerification user) :
    Alike ((Checker.on registry config left).loader.loadForResource user resourceType resourceId now)
      ((Checker.on registry config right).loader.loadForResource user resourceType resourceId now) := by
  unfold Loader.loadForResource
  rw [agree.load]
  refine (Alike.refl _).bind fun elapsed grants returned => ?_
  refine (agree.expandGrants grants fun counts => ?_).bind fun _ _ _ => .refl _
  obtain ⟨principal, present, notRoot, verified, _, sameTeams⟩ := (gives.load_returns returned).resolve_left (by simp [counts])
  rw [sameTeams]
  exact answers principal present notRoot verified

/-- Since both take the same time, both are in time or neither is. -/
theorem bounded {first second : Loading α} (alike : Alike first second) :
    ((Checker.on registry config left).bounded first).toOption =
      ((Checker.on registry config right).bounded second).toOption := by
  obtain ⟨sameOutcome, sameState⟩ := alike .zero
  unfold Checker.bounded
  generalize first.perform .zero = first at sameOutcome sameState ⊢
  generalize second.perform .zero = second at sameOutcome sameState ⊢
  obtain ⟨outcome, elapsed⟩ := first
  obtain ⟨other, _⟩ := second
  cases sameState
  have same : (outcome.mapError CheckError.ofLoad).toOption = (other.mapError CheckError.ofLoad).toOption := by
    rw [toOption_mapError, toOption_mapError]
    exact sameOutcome
  cases limited : config.timeout with
  | none => simpa [Checker.on, limited] using same
  | some limit =>
    by_cases late : limit < elapsed
    · simp [Checker.on, limited, late, Except.toOption]
    · simpa [Checker.on, limited, late] using same

theorem bounded_load (agree : ReadsAgree room left right) :
    ((Checker.on registry config left).bounded ((Checker.on registry config left).loader.load user)).toOption =
      ((Checker.on registry config right).bounded ((Checker.on registry config right).loader.load user)).toOption := by
  rw [agree.load]
  exact bounded (.refl _)

theorem explain (agree : ReadsAgree room left right) :
    ((Checker.on registry config left).explain user permission).toOption =
      ((Checker.on registry config right).explain user permission).toOption := by
  simp only [Checker.explain, toOption_bind, agree.bounded_load]
  rfl

theorem userPermissions (agree : ReadsAgree room left right) :
    ((Checker.on registry config left).userPermissions user).toOption =
      ((Checker.on registry config right).userPermissions user).toOption := by
  simp only [Checker.userPermissions, toOption_bind, agree.bounded_load]
  rfl

section

variable (agree : ReadsAgree (fun teamIds => facts.refusal teamIds = none) left right) (gives : Gives right facts)
  (answers : facts.Answers config.enforceVerification user)

include agree gives answers

theorem bounded_loadForResource :
    ((Checker.on registry config left).bounded
        ((Checker.on registry config left).loader.loadForResource user resourceType resourceId now)).toOption =
      ((Checker.on registry config right).bounded
        ((Checker.on registry config right).loader.loadForResource user resourceType resourceId now)).toOption :=
  bounded (agree.loadForResource gives answers)

theorem explainResource :
    ((Checker.on registry config left).explainResource user resourceType resourceId permission now).toOption =
      ((Checker.on registry config right).explainResource user resourceType resourceId permission now).toOption := by
  simp only [Checker.explainResource, toOption_bind, bounded_loadForResource agree gives answers]
  rfl

theorem resourcePermissions :
    ((Checker.on registry config left).resourcePermissions user resourceType resourceId now).toOption =
      ((Checker.on registry config right).resourcePermissions user resourceType resourceId now).toOption := by
  simp only [Checker.resourcePermissions, toOption_bind, bounded_loadForResource agree gives answers]
  rfl

end

end ReadsAgree

end Store

end AccessControl
