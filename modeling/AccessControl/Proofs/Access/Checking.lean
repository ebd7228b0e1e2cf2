import AccessControl.Proofs.Access.Loading
import AccessControl.Proofs.Registry.Resolution
import AccessControl.Access.Checker

namespace AccessControl

open Text

namespace Decision

variable {permission : PermissionId} {missing : List PermissionId}

/-- The decision about a permission that is held, given what is missing of all that it depends on. -/
def ofMissing (permission : PermissionId) (missing : List PermissionId) : Decision :=
  if missing.isEmpty then .of permission .granted else .missingDependencies permission missing

@[simp] theorem missing_ofMissing : (ofMissing permission missing).missing = missing := by
  cases missing <;> rfl

theorem allowed_ofMissing_iff : (ofMissing permission missing).allowed = true ↔ missing = [] := by
  cases missing <;> simp [ofMissing, missingDependencies, of, Reason.isAllowed]

theorem reason_ofMissing_iff : (ofMissing permission missing).reason = .missingDependencies ↔ missing ≠ [] := by
  cases missing <;> simp [ofMissing, missingDependencies, of]

end Decision

/-- The arguments of a check, each with its name, in the order in which they are tested. -/
abbrev Arguments := List (String × String)

namespace Checker

variable {checker : Checker} {facts : StoreFacts} {times : ReadTimes} {user : UserId} {permission : PermissionId}
  {resourceType resourceId : String} {now : Timestamp} {arguments : Arguments} {grants : UserGrants}
  {dependencies : List PermissionId}

def Given (arguments : Arguments) : Prop :=
  ∀ argument ∈ arguments, isBlank argument.2 = false

def InTime (checker : Checker) (times : ReadTimes) : Prop :=
  ∀ limit, checker.config.timeout = some limit → times.total.nanoseconds ≤ limit.nanoseconds

def requireAll : Arguments → Except CheckError Unit
  | [] => .ok ()
  | (field, value) :: rest => do
    require field value
    requireAll rest

theorem requireAll_cons {field value : String} (given : isBlank value = false) :
    requireAll ((field, value) :: arguments) = requireAll arguments := by
  rw [requireAll, require, if_neg (by simp [given])]
  rfl

theorem requireAll_eq_ok (given : Given arguments) : requireAll arguments = .ok () := by
  induction arguments with
  | nil => rfl
  | cons first rest ih =>
    obtain ⟨here, later⟩ := List.forall_mem_cons.mp given
    rw [requireAll_cons here]
    exact ih later

theorem requireAll_eq_error {before after : Arguments} {field value : String} (given : Given before)
    (blank : isBlank value = true) :
    requireAll (before ++ (field, value) :: after) = .error (.invalidInput field) := by
  induction before with
  | nil =>
    rw [List.nil_append, requireAll, require, if_pos blank]
    rfl
  | cons first rest ih =>
    obtain ⟨here, later⟩ := List.forall_mem_cons.mp given
    rw [List.cons_append, requireAll_cons here]
    exact ih later

theorem given_or_blank (arguments : Arguments) :
    Given arguments ∨ ∃ before field value after, arguments = before ++ (field, value) :: after ∧ Given before ∧
      isBlank value = true := by
  induction arguments with
  | nil => exact .inl (by simp [Given])
  | cons first rest ih =>
    cases blank : isBlank first.2 with
    | true => exact .inr ⟨[], first.1, first.2, rest, rfl, by simp [Given], blank⟩
    | false =>
      rcases ih with given | ⟨before, field, value, after, rfl, given, blankLater⟩
      · exact .inl (List.forall_mem_cons.mpr ⟨blank, given⟩)
      · exact .inr ⟨first :: before, field, value, after, rfl, List.forall_mem_cons.mpr ⟨blank, given⟩, blankLater⟩

theorem bounded_eq {loading : Loading UserGrants} {outcome : Except LoadError UserGrants} (inTime : checker.InTime times)
    (settles : Transition.Settles loading outcome times.total) :
    checker.bounded loading = outcome.mapError .ofLoad := by
  obtain ⟨later, performed, within⟩ := settles .zero
  rw [Transition.nanoseconds_zero, Nat.zero_add] at within
  unfold bounded
  rw [performed]
  cases limited : checker.config.timeout with
  | none => rfl
  | some limit =>
    have soon := inTime limit limited
    exact if_neg (show ¬ limit.nanoseconds < later.nanoseconds by omega)

def decideLoaded (checker : Checker) (permission : PermissionId) (outcome : Except LoadError UserGrants) :
    Except CheckError Decision :=
  outcome.mapError .ofLoad >>= fun grants => checker.decide grants permission

@[simp] theorem decideLoaded_ok : checker.decideLoaded permission (.ok grants) = checker.decide grants permission := rfl

def globalArguments (user : UserId) (permission : PermissionId) : Arguments :=
  [("user_id", user), ("permission_id", permission)]

def resourceArguments (user : UserId) (resourceType resourceId : String) (permission : PermissionId) : Arguments :=
  [("user_id", user), ("resource_type", resourceType), ("resource_id", resourceId), ("permission_id", permission)]

theorem explain_eq :
    checker.explain user permission = (do
      requireAll (globalArguments user permission)
      checker.decide (← checker.bounded (checker.loader.load user)) permission) := by
  unfold explain globalArguments
  simp only [requireAll]
  cases require "user_id" user <;> cases require "permission_id" permission <;> rfl

theorem explainResource_eq :
    checker.explainResource user resourceType resourceId permission now = (do
      requireAll (resourceArguments user resourceType resourceId permission)
      checker.decide (← checker.bounded (checker.loader.loadForResource user resourceType resourceId now))
        permission) := by
  unfold explainResource resourceArguments
  simp only [requireAll]
  cases require "user_id" user <;> cases require "resource_type" resourceType <;>
    cases require "resource_id" resourceId <;> cases require "permission_id" permission <;> rfl

theorem explain_of_blank (checker : Checker) (blank : ¬ Given (globalArguments user permission)) :
    ∃ field, checker.explain user permission = .error (.invalidInput field) := by
  obtain ⟨before, field, value, after, split, given, isBlank⟩ := (given_or_blank _).resolve_left blank
  exact ⟨field, by rw [explain_eq, split, requireAll_eq_error given isBlank]; rfl⟩

theorem explainResource_of_blank (checker : Checker)
    (blank : ¬ Given (resourceArguments user resourceType resourceId permission)) :
    ∃ field, checker.explainResource user resourceType resourceId permission now = .error (.invalidInput field) := by
  obtain ⟨before, field, value, after, split, given, isBlank⟩ := (given_or_blank _).resolve_left blank
  exact ⟨field, by rw [explainResource_eq, split, requireAll_eq_error given isBlank]; rfl⟩

theorem explain_outcome (tells : checker.source.Tells facts times) (inTime : checker.InTime times)
    (given : Given (globalArguments user permission)) :
    ∃ outcome, facts.Loads checker.registry checker.config.enforceVerification user (fun _ => ∅) outcome ∧
      checker.explain user permission = checker.decideLoaded permission outcome := by
  obtain ⟨outcome, settles, shape⟩ := checker.loader.load_outcome tells user
  have within : (times.principal + (times.verificationRequired + times.verification)).nanoseconds ≤
      times.total.nanoseconds := by simp [ReadTimes.total]
  refine ⟨outcome, shape, ?_⟩
  rw [explain_eq, requireAll_eq_ok given, bounded_eq inTime (settles.mono within)]
  rfl

theorem explainResource_outcome (tells : checker.source.Tells facts times) (inTime : checker.InTime times)
    (given : Given (resourceArguments user resourceType resourceId permission)) (now : Timestamp) :
    ∃ outcome, (facts.Answers checker.config.enforceVerification user ∧
          facts.Loads checker.registry checker.config.enforceVerification user
            (facts.permissionsOn user resourceType resourceId now) outcome ∨
        ¬ facts.Answers checker.config.enforceVerification user ∧ ∃ error, outcome = .error error) ∧
      checker.explainResource user resourceType resourceId permission now =
        checker.decideLoaded permission outcome := by
  obtain ⟨outcome, settles, shape⟩ :=
    checker.loader.loadForResource_outcome tells user resourceType resourceId now
  refine ⟨outcome, shape, ?_⟩
  rw [explainResource_eq, requireAll_eq_ok given, bounded_eq inTime settles]
  rfl

theorem explainResource_of_answers (tells : checker.source.Tells facts times) (inTime : checker.InTime times)
    (answers : facts.Answers checker.config.enforceVerification user)
    (given : Given (resourceArguments user resourceType resourceId permission)) :
    ∃ outcome, facts.Loads checker.registry checker.config.enforceVerification user
        (facts.permissionsOn user resourceType resourceId now) outcome ∧
      checker.explainResource user resourceType resourceId permission now =
        checker.decideLoaded permission outcome := by
  obtain ⟨outcome, ⟨_, shape⟩ | ⟨refused, _⟩, same⟩ := explainResource_outcome tells inTime given now
  · exact ⟨outcome, shape, same⟩
  · exact absurd answers refused

@[simp] theorem isRoot_root : (UserGrants.root user).isRoot = true := rfl

@[simp] theorem isRoot_pending {teamIds : List TeamId} : (UserGrants.pending user teamIds).isRoot = false := rfl

@[simp] theorem isRoot_granted {teamIds : List TeamId} {permissions : PermissionSet} :
    (UserGrants.granted user teamIds permissions).isRoot = false := rfl

theorem missing_isEmpty_iff {required : List PermissionId} :
    (grants.missing required).isEmpty = true ↔ ∀ id ∈ required, id ∈ grants.permissions := by
  simp [UserGrants.missing, UserGrants.holds]

theorem decide_root (isRoot : grants.isRoot = true) : checker.decide grants permission = .ok (.of permission .root) :=
  if_pos isRoot

/-- Without the root flag what is said of a permission whose requirements can be listed depends on the grants only. -/
theorem decide_resolved (notRoot : grants.isRoot = false)
    (resolved : checker.registry.resolveDependencies permission = .ok dependencies) :
    checker.decide grants permission = .ok
      (if grants.verificationPending then .of permission .verificationPending
      else if grants.holds permission then .ofMissing permission (grants.missing dependencies)
      else .of permission .notGranted) := by
  have registered := (Registry.resolveDependencies_eq_ok resolved).2.2.registered
  unfold decide
  rw [if_neg (by simp [notRoot]), if_pos registered, resolved]
  dsimp only
  cases grants.verificationPending with
  | true => rfl
  | false =>
    cases grants.holds permission with
    | false => rfl
    | true =>
      simp only [Bool.false_eq_true, Bool.not_true, if_false, if_true, Decision.ofMissing]
      split <;> rfl

/-- Without the root flag a permission is decided if its requirements can be listed, and is allowed if the grants
are not withheld and hold it with all of them. -/
theorem decide_outcome (checker : Checker) (permission : PermissionId) (notRoot : grants.isRoot = false) :
    permission ∉ checker.registry ∧ checker.decide grants permission = .error (.unknownPermission permission) ∨
    permission ∈ checker.registry ∧ (∃ fault, checker.registry.ResolutionFault permission fault ∧
      checker.decide grants permission = .error (.ofRegistry fault)) ∨
    checker.registry.Resolvable permission ∧ ∃ decision, checker.decide grants permission = .ok decision ∧
      (decision.allowed = true ↔ grants.verificationPending = false ∧ permission ∈ grants.permissions ∧
        ∀ id ∈ checker.registry.requirements permission, id ∈ grants.permissions) := by
  by_cases registered : permission ∈ checker.registry
  · cases resolved : checker.registry.resolveDependencies permission with
    | error fault =>
      rcases Registry.resolveDependencies_eq_error resolved with ⟨missing, _⟩ | ⟨_, genuine⟩
      · exact absurd registered missing
      · refine .inr (.inl ⟨registered, fault, genuine, ?_⟩)
        rw [decide, if_neg (by simp [notRoot]), if_pos registered, resolved]
    | ok dependencies =>
      obtain ⟨_, requirements, resolvable⟩ := Registry.resolveDependencies_eq_ok resolved
      refine .inr (.inr ⟨resolvable, _, decide_resolved notRoot resolved, ?_⟩)
      simp only [← requirements, ← missing_isEmpty_iff]
      cases grants.verificationPending with
      | true => simp [Decision.of, Reason.isAllowed]
      | false =>
        by_cases held : permission ∈ grants.permissions
        · simp [UserGrants.holds, held, Decision.allowed_ofMissing_iff]
        · simp [UserGrants.holds, held, Decision.of, Reason.isAllowed]
  · rw [decide, if_neg (by simp [notRoot]), if_neg registered]
    exact .inl ⟨registered, rfl⟩

theorem resolvable_of_decide {decision : Decision} (notRoot : grants.isRoot = false)
    (decided : checker.decide grants permission = .ok decision) : checker.registry.Resolvable permission := by
  rcases checker.decide_outcome permission notRoot with ⟨_, failed⟩ | ⟨_, _, _, failed⟩ | ⟨resolvable, _⟩
  · simp [decided] at failed
  · simp [decided] at failed
  · exact resolvable

theorem decide_of_resolvable (notRoot : grants.isRoot = false) (resolvable : checker.registry.Resolvable permission) :
    ∃ decision, checker.decide grants permission = .ok decision ∧
      (decision.allowed = true ↔ grants.verificationPending = false ∧ permission ∈ grants.permissions ∧
        ∀ id ∈ checker.registry.requirements permission, id ∈ grants.permissions) := by
  rcases checker.decide_outcome permission notRoot with ⟨missing, _⟩ | ⟨_, _, fault, _⟩ | ⟨_, decided⟩
  · exact absurd resolvable.registered missing
  · exact absurd resolvable fault.not_resolvable
  · exact decided

theorem decide_allowed_iff (notRoot : grants.isRoot = false) :
    (∃ decision, checker.decide grants permission = .ok decision ∧ decision.allowed = true) ↔
      checker.registry.Resolvable permission ∧ grants.verificationPending = false ∧
        permission ∈ grants.permissions ∧ ∀ id ∈ checker.registry.requirements permission, id ∈ grants.permissions := by
  constructor
  · intro decides
    obtain ⟨decision, decided, allowed⟩ := decides
    have resolvable := resolvable_of_decide notRoot decided
    obtain ⟨found, same, allowedIff⟩ := decide_of_resolvable notRoot resolvable
    obtain rfl : decision = found := Except.ok.inj (decided.symm.trans same)
    exact ⟨resolvable, allowedIff.mp allowed⟩
  · intro enough
    obtain ⟨resolvable, enough⟩ := enough
    obtain ⟨decision, decided, allowedIff⟩ := decide_of_resolvable notRoot resolvable
    exact ⟨decision, decided, allowedIff.mpr enough⟩

end Checker

end AccessControl
