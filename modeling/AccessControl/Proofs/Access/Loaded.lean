import AccessControl.Proofs.Access.Loading

/-!
What grants can be loaded from any source at all. A source need not be a store: its reads may fail, take their time
and answer differently later, so what a user is found to be is what the reads told one after the other.
-/

namespace AccessControl

open Transition

namespace Transition

variable {first : Transition ε σ α} {next : α → Transition ε σ β} {before after : σ}

theorem bind_eq_ok {result : β} (performed : (first >>= next).perform before = (.ok result, after)) :
    ∃ value between, first.perform before = (.ok value, between) ∧
      (next value).perform between = (.ok result, after) := by
  rw [perform_bind] at performed
  split at performed
  · next value between given => exact ⟨value, between, given, performed⟩
  · simp at performed

theorem pure_eq_ok {value result : α}
    (performed : (pure value : Transition ε σ α).perform before = (.ok result, after)) :
    result = value ∧ after = before := by
  rw [perform_pure] at performed
  cases performed
  exact ⟨rfl, rfl⟩

end Transition

theorem Reading.load_eq_ok {reading : Reading α} {value : α} {before after : Duration} :
    reading.load.perform before = (.ok value, after) ↔ reading.perform before = (.ok value, after) := by
  rw [load, perform_adapt]
  obtain ⟨outcome, between⟩ := reading.perform before
  cases outcome <;> simp [Except.mapError]

namespace GrantSource

variable {source : GrantSource} {facts : StoreFacts} {times : ReadTimes} {user : UserId}
  {principal : Principal} {elapsed : Duration}

/-- The read with which every loading starts finds this principal, and is done with at this time. -/
def Finds (source : GrantSource) (user : UserId) (principal : Principal) (elapsed : Duration) : Prop :=
  (source.principal user).perform .zero = (.ok (some principal), elapsed)

/-- The reads that come next tell that verification is required, and that the principal has not completed it. -/
def Awaits (source : GrantSource) (principal : Principal) (elapsed : Duration) : Prop :=
  ∃ between later record, source.verificationRequired.perform elapsed = (.ok true, between) ∧
    (source.verification principal.userId).perform between = (.ok (some record), later) ∧ record.verifiedAt = none

/-- Of a source that tells what a store does only the store matters, not the times. -/
theorem Tells.finds_iff (tells : source.Tells facts times) :
    (∃ elapsed, source.Finds user principal elapsed) ↔ facts.principal user = some principal := by
  obtain ⟨later, performed, _⟩ := tells.principal user .zero
  simp [Finds, performed]

theorem Tells.awaits_iff (tells : source.Tells facts times) :
    source.Awaits principal elapsed ↔ facts.verificationRequired = true ∧
      ∃ record, facts.verification principal.userId = some record ∧ record.verifiedAt = none := by
  obtain ⟨between, required, _⟩ := tells.verificationRequired elapsed
  obtain ⟨later, verification, _⟩ := tells.verification principal.userId between
  constructor
  · intro awaits
    obtain ⟨_, _, record, answered, answeredNext, incomplete⟩ := awaits
    obtain ⟨demanded, rfl⟩ : facts.verificationRequired = true ∧ between = _ := by simpa [required] using answered
    obtain ⟨known, -⟩ : facts.verification principal.userId = some record ∧ later = _ := by
      simpa [verification] using answeredNext
    exact ⟨demanded, record, known, incomplete⟩
  · intro told
    obtain ⟨demanded, record, known, incomplete⟩ := told
    exact ⟨between, later, record, by rw [required, demanded], by rw [verification, known], incomplete⟩

end GrantSource

namespace Loader

variable {loader : Loader} {user : UserId} {principal : Principal} {grants : UserGrants}
  {before elapsed later : Duration}

/-- The user may do nothing before verifying an email address. -/
def Withholds (loader : Loader) (principal : Principal) (elapsed : Duration) : Prop :=
  loader.enforceVerification = true ∧ principal.provider = .localAccounts ∧ loader.source.Awaits principal elapsed

theorem withholds_iff {facts : StoreFacts} {times : ReadTimes} (tells : loader.source.Tells facts times) :
    loader.Withholds principal elapsed ↔ facts.Pending loader.enforceVerification principal := by
  rw [Withholds, StoreFacts.Pending, tells.awaits_iff]

/-- The grants that a loading for the user can return. -/
inductive Loaded (loader : Loader) (user : UserId) : UserGrants → Prop where
  | root {principal : Principal} {elapsed : Duration} (found : loader.source.Finds user principal elapsed)
    (isRoot : principal.isRoot = true) : Loaded loader user (.root user)
  | pending {principal : Principal} {elapsed : Duration} (found : loader.source.Finds user principal elapsed)
    (notRoot : principal.isRoot = false) (withheld : loader.Withholds principal elapsed) :
    Loaded loader user (.pending user principal.teamIds)
  | granted {principal : Principal} {elapsed : Duration} {permissions : PermissionSet}
    (found : loader.source.Finds user principal elapsed) (notRoot : principal.isRoot = false)
    (verified : ¬ loader.Withholds principal elapsed)
    (closed : ∀ id ∈ permissions, ∀ target, loader.registry.Implies id target → target ∈ permissions)
    (registered : ∀ id ∈ permissions, id ∈ loader.registry) :
    Loaded loader user (.granted user principal.teamIds permissions)

/-- The gate says what the reads told, also when it does not ask for the rest of them. -/
theorem verificationPending_eq_ok {pending : Bool}
    (performed : (loader.verificationPending principal).perform elapsed = (.ok pending, later)) :
    pending = true ↔ loader.Withholds principal elapsed := by
  have isLocal : principal.provider.isLocal = true ↔ principal.provider = .localAccounts := by
    cases principal.provider <;> simp [AuthProvider.isLocal]
  unfold verificationPending at performed
  split at performed
  · next asked =>
    rw [Bool.and_eq_true, isLocal] at asked
    obtain ⟨required, between, first, performed⟩ := bind_eq_ok performed
    rw [Reading.load_eq_ok] at first
    cases required with
    | false =>
      obtain ⟨rfl, -⟩ := pure_eq_ok performed
      constructor
      · exact fun pending => absurd pending Bool.false_ne_true
      · intro withheld
        obtain ⟨-, -, _, _, _, demanded, -⟩ := withheld
        simp [first] at demanded
    | true =>
      obtain ⟨verification, last, second, performed⟩ := bind_eq_ok performed
      rw [Reading.load_eq_ok] at second
      obtain ⟨rfl, -⟩ := pure_eq_ok performed
      constructor
      · intro incomplete
        obtain ⟨record, rfl, incomplete⟩ := (Option.any_eq_true _ _).mp incomplete
        have incomplete : record.verifiedAt = none := by simpa [Verification.isComplete] using incomplete
        exact ⟨asked.1, asked.2, between, last, record, first, second, incomplete⟩
      · intro withheld
        obtain ⟨-, -, _, _, record, demanded, known, incomplete⟩ := withheld
        obtain rfl : between = _ := by simpa [first] using demanded
        obtain ⟨rfl, -⟩ : verification = some record ∧ last = _ := by simpa [second] using known
        simp [Verification.isComplete, incomplete]
  · next notAsked =>
    obtain ⟨rfl, -⟩ := pure_eq_ok performed
    rw [Bool.and_eq_true, isLocal] at notAsked
    constructor
    · exact fun pending => absurd pending Bool.false_ne_true
    · exact fun withheld => absurd ⟨withheld.1, withheld.2.1⟩ notAsked

/-- What comes out of an expansion contains what it implies, and nothing that is unknown. -/
theorem expand_eq_ok {ids : List PermissionId} {permissions : PermissionSet}
    (performed : (loader.expand ids).perform elapsed = (.ok permissions, later)) :
    (∀ id ∈ permissions, ∀ target, loader.registry.Implies id target → target ∈ permissions) ∧
      ∀ id ∈ permissions, id ∈ loader.registry := by
  rw [expand, perform_ofExcept] at performed
  cases expanded : loader.registry.expandImplied ids with
  | error error => simp [expanded, Except.mapError] at performed
  | ok found =>
    obtain ⟨rfl, -⟩ : found = permissions ∧ elapsed = later := by simpa [expanded, Except.mapError] using performed
    obtain ⟨members, registered⟩ := Registry.expandImplied_eq_ok expanded
    refine ⟨fun id member target edge => ?_, fun id member => registered id ((members id).mp member)⟩
    exact (members target).mpr (Registry.implied_mem_impliedBy ((members id).mp member) edge)

theorem load_loaded (performed : (loader.load user).perform .zero = (.ok grants, later)) :
    loader.Loaded user grants := by
  obtain ⟨known, elapsed, first, performed⟩ := bind_eq_ok performed
  rw [Reading.load_eq_ok] at first
  cases known with
  | none => simp [perform_throw] at performed
  | some principal =>
    dsimp only at performed
    split at performed
    · next isRoot =>
      obtain ⟨rfl, -⟩ := pure_eq_ok performed
      exact .root first isRoot
    · next notRoot =>
      obtain ⟨pending, between, gate, performed⟩ := bind_eq_ok performed
      have withheld := verificationPending_eq_ok gate
      have notRoot : principal.isRoot = false := by simpa using notRoot
      split at performed
      · next isPending =>
        obtain ⟨rfl, -⟩ := pure_eq_ok performed
        exact .pending first notRoot (withheld.mp isPending)
      · next notPending =>
        obtain ⟨permissions, _, expanded, performed⟩ := bind_eq_ok performed
        obtain ⟨rfl, -⟩ := pure_eq_ok performed
        obtain ⟨closed, registered⟩ := expand_eq_ok expanded
        exact .granted first notRoot (fun also => notPending (withheld.mpr also)) closed registered

/-- What is granted on a resource is added to what is granted everywhere, and may be left out where it does not
count. -/
theorem loadForResource_loaded {resourceType resourceId : String} {now : Timestamp}
    (performed : (loader.loadForResource user resourceType resourceId now).perform .zero = (.ok grants, later)) :
    loader.Loaded user grants := by
  obtain ⟨everywhere, elapsed, loaded, performed⟩ := bind_eq_ok performed
  obtain ⟨here, between, asked, performed⟩ := bind_eq_ok performed
  obtain ⟨rfl, -⟩ := pure_eq_ok performed
  unfold resourcePermissions at asked
  cases load_loaded loaded with
  | root found isRoot =>
    obtain ⟨rfl, -⟩ := pure_eq_ok asked
    rw [merge_empty]
    exact .root found isRoot
  | pending found notRoot withheld =>
    obtain ⟨rfl, -⟩ := pure_eq_ok asked
    rw [merge_empty]
    exact .pending found notRoot withheld
  | granted found notRoot verified closed registered =>
    obtain ⟨_, _, _, asked⟩ := bind_eq_ok asked
    obtain ⟨closedHere, registeredHere⟩ := expand_eq_ok asked
    refine .granted found notRoot verified (fun id member target edge => ?_) fun id member => ?_
    · rw [Std.ExtTreeSet.mem_union_iff] at member ⊢
      exact member.imp (closed id · target edge) (closedHere id · target edge)
    · exact (Std.ExtTreeSet.mem_union_iff.mp member).elim (registered id) (registeredHere id)

end Loader

end AccessControl
