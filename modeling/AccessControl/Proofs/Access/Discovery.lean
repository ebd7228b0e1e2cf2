import AccessControl.Proofs.Access.Checking
import AccessControl.Proofs.Access.Loaded
import AccessControl.Proofs.Registry.Validation

namespace AccessControl

theorem lt_of_compare {first second : PermissionId} (less : compare first second = .lt) : first < second :=
  compareOfLessAndEq_eq_lt.mp less

theorem Registry.pairwise_lt_ids (registry : Registry) : registry.ids.Pairwise (· < ·) :=
  registry.ids_pairwise_lt.imp lt_of_compare

theorem UserGrants.pairwise_lt_sorted (grants : UserGrants) : grants.sorted.Pairwise (· < ·) :=
  Std.ExtTreeSet.ordered_toList.imp lt_of_compare

theorem UserGrants.mem_sorted {grants : UserGrants} {id : PermissionId} :
    id ∈ grants.sorted ↔ id ∈ grants.permissions :=
  Std.ExtTreeSet.mem_toList

namespace Checker

open Text (isBlank)

variable {checker : Checker} {user : UserId} {permission : PermissionId} {grants : UserGrants}
  {loading : Loading UserGrants} {decision : Decision}

/-- What a list of permissions that was asked for says about the explanation of each permission. -/
inductive Discovers (checker : Checker) (user : UserId) :
    Except CheckError (List PermissionId) → (PermissionId → Except CheckError Decision) → Prop where
  | failed {error : CheckError} {explain : PermissionId → Except CheckError Decision}
    (alike : ∀ permission, isBlank permission = false → explain permission = .error error) :
    Discovers checker user (.error error) explain
  | root {ids : List PermissionId} {explain : PermissionId → Except CheckError Decision} {principal : Principal}
    {elapsed : Duration} (found : checker.source.Finds user principal elapsed) (isRoot : principal.isRoot = true)
    (sorted : ids.Pairwise (· < ·)) (all : ∀ id, id ∈ ids ↔ id ∈ checker.registry)
    (allowed : ∀ permission, isBlank permission = false → explain permission = .ok (.of permission .root)) :
    Discovers checker user (.ok ids) explain
  | other {ids : List PermissionId} {explain : PermissionId → Except CheckError Decision} {principal : Principal}
    {elapsed : Duration} (found : checker.source.Finds user principal elapsed) (notRoot : principal.isRoot = false)
    (sorted : ids.Pairwise (· < ·)) (registered : ∀ id ∈ ids, id ∈ checker.registry)
    (closed : ∀ id ∈ ids, ∀ target, checker.registry.Implies id target → target ∈ ids)
    (withheld : checker.loader.Withholds principal elapsed → ids = [])
    (answered : ∀ permission dependencies, isBlank permission = false →
      checker.registry.resolveDependencies permission = .ok dependencies →
      ∃ decision, explain permission = .ok decision)
    (decided : ∀ permission decision, explain permission = .ok decision →
      ∃ dependencies, checker.registry.resolveDependencies permission = .ok dependencies ∧
        (decision.allowed = true ↔ permission ∈ ids ∧ ∀ id ∈ dependencies, id ∈ ids)) :
    Discovers checker user (.ok ids) explain

theorem bounded_eq_ok (loaded : checker.bounded loading = .ok grants) :
    ∃ later, loading.perform .zero = (.ok grants, later) := by
  unfold bounded at loaded
  generalize loading.perform .zero = performed at loaded ⊢
  obtain ⟨outcome, later⟩ := performed
  have inTime : outcome.mapError CheckError.ofLoad = .ok grants := by
    dsimp only at loaded
    split at loaded
    · split at loaded
      · simp at loaded
      · exact loaded
    · exact loaded
  cases outcome with
  | ok found => exact ⟨later, by rw [Except.ok.inj inTime]⟩
  | error => simp [Except.mapError] at inTime

/-- Grants that are withheld must not be listed, as they allow nothing. -/
theorem decide_eq_ok (notRoot : grants.isRoot = false)
    (withheld : grants.verificationPending = true → grants.sorted = [])
    (decided : checker.decide grants permission = .ok decision) :
    ∃ dependencies, checker.registry.resolveDependencies permission = .ok dependencies ∧
      (decision.allowed = true ↔ permission ∈ grants.sorted ∧ ∀ id ∈ dependencies, id ∈ grants.sorted) := by
  have resolvable := resolvable_of_decide notRoot decided
  obtain ⟨found, same, allowed⟩ := decide_of_resolvable notRoot resolvable
  obtain rfl : decision = found := Except.ok.inj (decided.symm.trans same)
  obtain ⟨dependencies, resolved⟩ := Registry.resolvable_iff.mp resolvable
  have requirements := (Registry.resolveDependencies_eq_ok resolved).2.1
  refine ⟨dependencies, resolved, ?_⟩
  simp only [allowed, requirements, UserGrants.mem_sorted]
  refine and_iff_right_of_imp fun covered => ?_
  cases pending : grants.verificationPending with
  | false => rfl
  | true => simp [← UserGrants.mem_sorted, withheld pending] at covered

theorem discovers_of_loaded {explain : PermissionId → Except CheckError Decision}
    (loaded : checker.loader.Loaded user grants)
    (decides : ∀ permission, isBlank permission = false → explain permission = checker.decide grants permission)
    (refuses : ∀ permission decision, explain permission = .ok decision → isBlank permission = false) :
    checker.Discovers user (.ok (checker.effective grants)) explain := by
  have answered (notRoot : grants.isRoot = false) (permission : PermissionId) (dependencies : List PermissionId)
      (given : isBlank permission = false)
      (resolved : checker.registry.resolveDependencies permission = .ok dependencies) :
      ∃ decision, explain permission = .ok decision := by
    obtain ⟨decision, decided, -⟩ := decide_of_resolvable notRoot (Registry.resolvable_iff.mpr ⟨_, resolved⟩)
    exact ⟨decision, (decides permission given).trans decided⟩
  have decided (notRoot : grants.isRoot = false) (withheld : grants.verificationPending = true → grants.sorted = [])
      (permission : PermissionId) (decision : Decision) (explained : explain permission = .ok decision) :=
    decide_eq_ok notRoot withheld ((decides permission (refuses permission decision explained)).symm.trans explained)
  cases loaded with
  | root found isRoot =>
    rw [effective, if_pos isRoot_root]
    refine .root found isRoot checker.registry.pairwise_lt_ids (fun _ => Registry.mem_ids) fun permission given => ?_
    exact (decides permission given).trans (decide_root isRoot_root)
  | @pending principal _ found notRoot withheld =>
    have nothing : (UserGrants.pending user principal.teamIds).sorted = [] := by
      simp [UserGrants.sorted, UserGrants.pending]
    rw [effective, if_neg (by simp)]
    refine .other found notRoot (UserGrants.pairwise_lt_sorted _) ?_ ?_ (fun _ => nothing) (answered isRoot_pending)
      (decided isRoot_pending fun _ => nothing)
    · simp [nothing]
    · simp [nothing]
  | granted found notRoot verified closed registered =>
    rw [effective, if_neg (by simp)]
    refine .other found notRoot (UserGrants.pairwise_lt_sorted _) (fun id member => ?_)
      (fun id member target edge => ?_) (fun withheld => absurd withheld verified) (answered isRoot_granted)
      (decided isRoot_granted fun pending => ?_)
    · exact registered id (UserGrants.mem_sorted.mp member)
    · exact UserGrants.mem_sorted.mpr (closed id (UserGrants.mem_sorted.mp member) target edge)
    · simp [UserGrants.granted] at pending

/-- The arguments of a listing are tested before the permission is, so a fault in them is found by both. -/
theorem discovers_of_arguments (arguments : Arguments)
    (returns : ∀ grants later, loading.perform .zero = (.ok grants, later) → checker.loader.Loaded user grants) :
    checker.Discovers user
      (do requireAll arguments
          return checker.effective (← checker.bounded loading))
      (fun permission => do
        requireAll (arguments ++ [("permission_id", permission)])
        checker.decide (← checker.bounded loading) permission) := by
  rcases given_or_blank arguments with given | ⟨before, field, value, after, rfl, given, blank⟩
  · have permissionGiven : ∀ permission, isBlank permission = false →
        requireAll (arguments ++ [("permission_id", permission)]) = .ok () := by
      refine fun permission present => requireAll_eq_ok fun argument member => ?_
      rcases List.mem_append.mp member with member | member
      · exact given argument member
      · rw [List.mem_singleton.mp member]
        exact present
    rw [requireAll_eq_ok given]
    cases loaded : checker.bounded loading with
    | error error =>
      refine .failed fun permission present => ?_
      rw [permissionGiven permission present]
      rfl
    | ok grants =>
      obtain ⟨later, returned⟩ := bounded_eq_ok loaded
      refine discovers_of_loaded (returns grants later returned) (fun permission present => ?_)
        fun permission decision explained => ?_
      · rw [permissionGiven permission present]
        rfl
      · cases blank : isBlank permission with
        | false => rfl
        | true =>
          rw [requireAll_eq_error given blank] at explained
          cases explained
  · rw [requireAll_eq_error given blank]
    refine .failed fun permission _ => ?_
    rw [List.append_assoc, List.cons_append, requireAll_eq_error given blank]
    rfl

/-- A list of what a user may do, everywhere or on a resource, says of every permission whether it is allowed. Where
the source is a store, the user that is found and what is withheld are what the store tells. -/
theorem listings_agree (checker : Checker) (user : UserId) :
    checker.Discovers user (checker.userPermissions user) (checker.explain user) ∧
    (∀ resourceType resourceId now,
      checker.Discovers user (checker.resourcePermissions user resourceType resourceId now)
        (fun permission => checker.explainResource user resourceType resourceId permission now)) ∧
    ∀ facts times, checker.source.Tells facts times → ∀ principal,
      ((∃ elapsed, checker.source.Finds user principal elapsed) ↔ facts.principal user = some principal) ∧
      ∀ elapsed, checker.loader.Withholds principal elapsed ↔
        facts.Pending checker.config.enforceVerification principal := by
  refine ⟨?_, ?_, fun facts times tells principal => ⟨tells.finds_iff, fun elapsed => Loader.withholds_iff tells⟩⟩
  · have listed : checker.userPermissions user = (do
        requireAll [("user_id", user)]
        return checker.effective (← checker.bounded (checker.loader.load user))) := by
      simp only [userPermissions, requireAll]
      cases require "user_id" user <;> rfl
    have explained : checker.explain user = fun permission => (do
        requireAll ([("user_id", user)] ++ [("permission_id", permission)])
        checker.decide (← checker.bounded (checker.loader.load user)) permission) :=
      funext fun _ => explain_eq
    rw [listed, explained]
    exact discovers_of_arguments _ fun _ _ => Loader.load_loaded
  · intro resourceType resourceId now
    let arguments : Arguments :=
      [("user_id", user), ("resource_type", resourceType), ("resource_id", resourceId)]
    have listed : checker.resourcePermissions user resourceType resourceId now = (do
        requireAll arguments
        return checker.effective
          (← checker.bounded (checker.loader.loadForResource user resourceType resourceId now))) := by
      simp only [resourcePermissions, arguments, requireAll]
      cases require "user_id" user <;> cases require "resource_type" resourceType <;>
        cases require "resource_id" resourceId <;> rfl
    have explained : (fun permission => checker.explainResource user resourceType resourceId permission now) =
        fun permission => (do
          requireAll (arguments ++ [("permission_id", permission)])
          checker.decide (← checker.bounded (checker.loader.loadForResource user resourceType resourceId now))
            permission) :=
      funext fun _ => explainResource_eq
    rw [listed, explained]
    exact discovers_of_arguments _ fun _ _ => Loader.loadForResource_loaded

/-- An editor by role who has been asked to verify an address. -/
def unverified : MemoryStore :=
  { MemoryStore.empty with
    users := (∅ : Std.ExtTreeMap UserId StoredUser).insert "ann" ⟨false, .localAccounts, {"editor"}⟩
    roles := (∅ : Std.ExtTreeMap RoleId StoredRole).insert "editor" ⟨"editor", {"edit"}⟩
    verifications := (∅ : Std.ExtTreeMap UserId Verification).insert "ann" ⟨"ann", none⟩
    verificationRequired := true }

def unverifiedEditor : Principal := ⟨"ann", false, .localAccounts, [⟨"editor", "editor", ["edit"]⟩], []⟩

def unverifiedChecker : Checker := { registry := .editing, source := Store.source unverified }

/-- Nothing is listed for the editor, and so nothing is allowed. -/
theorem unverified_denied :
    unverifiedChecker.source.Tells unverified.facts .none ∧ unverifiedChecker.userPermissions "ann" = .ok [] ∧
      ∀ permission decision, unverifiedChecker.explain "ann" permission = .ok decision → decision.allowed = false := by
  have tells : unverifiedChecker.source.Tells unverified.facts .none := unverified.source_tells
  have listed : unverifiedChecker.userPermissions "ann" = .ok [] := by decide +kernel
  obtain ⟨agree, -, told⟩ := listings_agree unverifiedChecker "ann"
  refine ⟨tells, listed, fun permission decision explained => ?_⟩
  rw [listed] at agree
  cases agree with
  | @root _ _ principal _ found isRoot =>
    have present : unverified.facts.principal "ann" = some unverifiedEditor := by decide
    obtain rfl : unverifiedEditor = principal :=
      Option.some.inj (present.symm.trans ((told _ _ tells principal).1.mp ⟨_, found⟩))
    cases isRoot
  | other _ _ _ _ _ _ _ decided =>
    obtain ⟨_, -, allowed⟩ := decided permission decision explained
    simpa using allowed

end Checker

end AccessControl
