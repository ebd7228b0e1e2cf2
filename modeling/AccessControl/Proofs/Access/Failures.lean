import AccessControl.Proofs.Access.Checking
import AccessControl.Proofs.Registry.Validation

namespace AccessControl

open Checker (Given)

namespace StoreFacts

variable {facts : StoreFacts} {registry : Registry} {enforced : Bool} {arguments : Arguments} {user : UserId}
  {extra : Principal → Set PermissionId} {permission : PermissionId} {error : CheckError}

/-- What is held has to be looked up only if it counts, and then all that it implies is registered. -/
def Loadable (facts : StoreFacts) (registry : Registry) (enforced : Bool) (extra : Principal → Set PermissionId)
    (principal : Principal) : Prop :=
  ¬ facts.Pending enforced principal →
    ∀ id ∈ registry.impliedBy (principal.permissions ∪ extra principal), id ∈ registry

/-- The user exists, and unless the user is root nothing is missing from the registry for the answer. -/
def Answerable (facts : StoreFacts) (registry : Registry) (enforced : Bool) (user : UserId)
    (extra : Principal → Set PermissionId) (permission : PermissionId) : Prop :=
  ∃ principal, facts.principal user = some principal ∧
    (principal.isRoot = true ∨ facts.Loadable registry enforced extra principal ∧ registry.Resolvable permission)

/-- The errors of a check in the order in which they are looked for: each comes only where those before it do not. -/
inductive Fails (facts : StoreFacts) (registry : Registry) (enforced : Bool) (arguments : Arguments) (user : UserId)
    (extra : Principal → Set PermissionId) (permission : PermissionId) : CheckError → Prop where
  | blank {before after : Arguments} {field value : String} (split : arguments = before ++ (field, value) :: after)
    (given : Given before) (blank : Text.isBlank value = true) :
    Fails facts registry enforced arguments user extra permission (.invalidInput field)
  | noUser (given : Given arguments) (absent : facts.principal user = none) :
    Fails facts registry enforced arguments user extra permission (.userNotFound user)
  | unknownGrant {principal : Principal} {culprit : PermissionId} (given : Given arguments)
    (present : facts.principal user = some principal) (notRoot : principal.isRoot = false)
    (verified : ¬ facts.Pending enforced principal)
    (implied : culprit ∈ registry.impliedBy (principal.permissions ∪ extra principal)) (missing : culprit ∉ registry) :
    Fails facts registry enforced arguments user extra permission (.unknownPermission culprit)
  | unknownPermission {principal : Principal} (given : Given arguments)
    (present : facts.principal user = some principal) (notRoot : principal.isRoot = false)
    (loadable : facts.Loadable registry enforced extra principal) (missing : permission ∉ registry) :
    Fails facts registry enforced arguments user extra permission (.unknownPermission permission)
  | unknownRequirement {principal : Principal} {culprit : PermissionId} (given : Given arguments)
    (present : facts.principal user = some principal) (notRoot : principal.isRoot = false)
    (loadable : facts.Loadable registry enforced extra principal) (registered : permission ∈ registry)
    (required : culprit ∈ registry.requirements permission) (missing : culprit ∉ registry) :
    Fails facts registry enforced arguments user extra permission (.unknownPermission culprit)
  | cycle {principal : Principal} {culprit : PermissionId} (given : Given arguments)
    (present : facts.principal user = some principal) (notRoot : principal.isRoot = false)
    (loadable : facts.Loadable registry enforced extra principal) (registered : permission ∈ registry)
    (required : culprit ∈ registry.requirements permission) (cycle : registry.OnCycle culprit) :
    Fails facts registry enforced arguments user extra permission (.circularDependency culprit)

theorem Fails.not_answerable (fails : facts.Fails registry enforced arguments user extra permission error)
    (given : Given arguments) : ¬ facts.Answerable registry enforced user extra permission := by
  intro answerable
  obtain ⟨principal, known, answers⟩ := answerable
  cases fails with
  | blank split _ blank =>
    subst split
    simp [given _ (List.mem_append_right _ List.mem_cons_self)] at blank
  | noUser _ absent => simp [known] at absent
  | unknownGrant _ present notRoot verified implied missing =>
    obtain rfl := Option.some.inj (known.symm.trans present)
    exact missing ((answers.resolve_left (by simp [notRoot])).1 verified _ implied)
  | unknownPermission _ present notRoot _ missing =>
    obtain rfl := Option.some.inj (known.symm.trans present)
    exact missing (answers.resolve_left (by simp [notRoot])).2.registered
  | unknownRequirement _ present notRoot _ _ required missing =>
    obtain rfl := Option.some.inj (known.symm.trans present)
    exact missing ((answers.resolve_left (by simp [notRoot])).2.requirements _ required)
  | cycle _ present notRoot _ _ required cycle =>
    obtain rfl := Option.some.inj (known.symm.trans present)
    exact (answers.resolve_left (by simp [notRoot])).2.acyclic.2 _ required cycle

/-- Either the one who asked is blamed or the registry, and then by its own errors, never through another. -/
theorem Fails.classified (fails : facts.Fails registry enforced arguments user extra permission error) :
    error.isStorage = false ∧ (∀ fault, error ≠ .registry fault) ∧
      (error.isMisconfiguration = true ∨ (∃ field, error = .invalidInput field) ∨ error = .userNotFound user) := by
  cases fails with
  | blank => exact ⟨rfl, by simp, .inr (.inl ⟨_, rfl⟩)⟩
  | noUser => exact ⟨rfl, by simp, .inr (.inr rfl)⟩
  | unknownGrant | unknownPermission | unknownRequirement | cycle => exact ⟨rfl, by simp, .inl rfl⟩

end StoreFacts

namespace Checker

variable {checker : Checker} {facts : StoreFacts} {times : ReadTimes} {user : UserId} {permission : PermissionId}
  {arguments : Arguments} {grants : UserGrants} {enforced : Bool} {extra : Principal → Set PermissionId}
  {principal : Principal} {outcome : Except LoadError UserGrants} {error : CheckError}
  {resourceType resourceId : String} {now : Timestamp}

/-- Once grants have been loaded only the permission itself can be at fault. -/
theorem decide_fails (given : Given arguments) (present : facts.principal user = some principal)
    (notRoot : principal.isRoot = false) (loadable : facts.Loadable checker.registry enforced extra principal)
    (unprivileged : grants.isRoot = false) (failed : checker.decide grants permission = .error error) :
    facts.Fails checker.registry enforced arguments user extra permission error := by
  rcases checker.decide_outcome permission unprivileged with ⟨missing, same⟩ | ⟨registered, fault, genuine, same⟩ |
    ⟨_, _, same, _⟩
  · obtain rfl := Except.error.inj (failed.symm.trans same)
    exact .unknownPermission given present notRoot loadable missing
  · obtain rfl := Except.error.inj (failed.symm.trans same)
    cases genuine with
    | unregistered required missing =>
      exact .unknownRequirement given present notRoot loadable registered required missing
    | cyclic required cycle => exact .cycle given present notRoot loadable registered required cycle
  · simp [failed] at same

theorem decideLoaded_fails (given : Given arguments)
    (shape : facts.Loads checker.registry enforced user extra outcome)
    (failed : checker.decideLoaded permission outcome = .error error) :
    facts.Fails checker.registry enforced arguments user extra permission error := by
  cases shape with
  | missing absent =>
    cases failed
    exact .noUser given absent
  | root present isRoot =>
    rw [decideLoaded_ok, decide_root isRoot_root] at failed
    cases failed
  | pending present notRoot pending =>
    rw [decideLoaded_ok] at failed
    exact decide_fails given present notRoot (fun verified => absurd pending verified) isRoot_pending failed
  | granted present notRoot _ closure registered =>
    rw [decideLoaded_ok] at failed
    have loadable : facts.Loadable checker.registry enforced extra _ :=
      fun _ id implied => registered id ((closure id).mpr implied)
    exact decide_fails given present notRoot loadable isRoot_granted failed
  | unknown present notRoot verified implied missing =>
    cases failed
    exact .unknownGrant given present notRoot verified implied missing

theorem decideLoaded_answers {decision : Decision} (shape : facts.Loads checker.registry enforced user extra outcome)
    (decided : checker.decideLoaded permission outcome = .ok decision) :
    facts.Answerable checker.registry enforced user extra permission := by
  cases shape with
  | missing => cases decided
  | root present isRoot => exact ⟨_, present, .inl isRoot⟩
  | pending present _ pending =>
    rw [decideLoaded_ok] at decided
    exact ⟨_, present, .inr ⟨fun verified => absurd pending verified, resolvable_of_decide isRoot_pending decided⟩⟩
  | granted present _ _ closure registered =>
    rw [decideLoaded_ok] at decided
    have loadable : facts.Loadable checker.registry enforced extra _ :=
      fun _ id implied => registered id ((closure id).mpr implied)
    exact ⟨_, present, .inr ⟨loadable, resolvable_of_decide isRoot_granted decided⟩⟩
  | unknown => cases decided

/-- An error is one of those that can come, and an answer says that none can. -/
structure Reports (result : Except CheckError α) (fails : CheckError → Prop) : Prop where
  error : ∀ error, result = .error error → fails error
  answer : ∀ value, result = .ok value → ∀ error, ¬ fails error

theorem Reports.map {result : Except CheckError α} {fails : CheckError → Prop} (reports : Reports result fails)
    (apply : α → β) : Reports (do return apply (← result)) fails := by
  cases result with
  | error error =>
    refine ⟨fun other same => ?_, fun _ answered => nomatch answered⟩
    cases same
    exact reports.error error rfl
  | ok value => exact ⟨fun _ failed => (nomatch failed), fun _ _ => reports.answer value rfl⟩

theorem reports_of_stages {result : Except CheckError Decision}
    (refused : ∀ {before field value after}, arguments = before ++ (field, value) :: after → Given before →
      Text.isBlank value = true → result = .error (.invalidInput field))
    (decided : Given arguments → ∃ outcome, facts.Loads checker.registry enforced user extra outcome ∧
      result = checker.decideLoaded permission outcome) :
    Reports result (facts.Fails checker.registry enforced arguments user extra permission) := by
  rcases given_or_blank arguments with given | ⟨before, field, value, after, split, given, blank⟩
  · obtain ⟨outcome, shape, rfl⟩ := decided given
    exact ⟨fun error => decideLoaded_fails given shape,
      fun decision answered error fails => fails.not_answerable given (decideLoaded_answers shape answered)⟩
  · rw [refused split given blank]
    refine ⟨fun error same => ?_, fun _ answered => nomatch answered⟩
    cases same
    exact .blank split given blank

def Fails (checker : Checker) (facts : StoreFacts) (user : UserId) (permission : PermissionId) : CheckError → Prop :=
  facts.Fails checker.registry checker.config.enforceVerification (globalArguments user permission) user
    (fun _ => ∅) permission

def FailsOn (checker : Checker) (facts : StoreFacts) (user : UserId) (resourceType resourceId : String)
    (permission : PermissionId) (now : Timestamp) : CheckError → Prop :=
  facts.Fails checker.registry checker.config.enforceVerification
    (resourceArguments user resourceType resourceId permission) user
    (facts.permissionsOn user resourceType resourceId now) permission

theorem explain_reports (tells : checker.source.Tells facts times) (inTime : checker.InTime times) :
    Reports (checker.explain user permission) (checker.Fails facts user permission) := by
  refine reports_of_stages (fun split given blank => ?_) (explain_outcome tells inTime)
  rw [explain_eq, split, requireAll_eq_error given blank]
  rfl

theorem explainResource_reports (tells : checker.source.Tells facts times) (inTime : checker.InTime times)
    (answers : facts.Answers checker.config.enforceVerification user) :
    Reports (checker.explainResource user resourceType resourceId permission now)
      (checker.FailsOn facts user resourceType resourceId permission now) := by
  refine reports_of_stages (fun split given blank => ?_) (explainResource_of_answers tells inTime answers)
  rw [explainResource_eq, split, requireAll_eq_error given blank]
  rfl

/-- Whatever the arguments, a check fails just when there is a reason to, with the first there is, and the error
is never one of the storage nor a fault of the registry that is passed on as such. On a resource the storage can
fail by itself only where it cannot be asked for the grants. -/
theorem reports_failures (tells : checker.source.Tells facts times) (inTime : checker.InTime times) (user : UserId)
    (permission : PermissionId) (resourceType resourceId : String) (now : Timestamp) :
    Reports (checker.explain user permission) (checker.Fails facts user permission) ∧
    Reports (checker.check user permission) (checker.Fails facts user permission) ∧
    (facts.Answers checker.config.enforceVerification user →
      Reports (checker.explainResource user resourceType resourceId permission now)
        (checker.FailsOn facts user resourceType resourceId permission now) ∧
      Reports (checker.checkResource user resourceType resourceId permission now)
        (checker.FailsOn facts user resourceType resourceId permission now)) ∧
    ∀ error, (checker.Fails facts user permission error ∨
        checker.FailsOn facts user resourceType resourceId permission now error) →
      error.isStorage = false ∧ (∀ fault, error ≠ .registry fault) ∧
        (error.isMisconfiguration = true ∨ (∃ field, error = .invalidInput field) ∨ error = .userNotFound user) := by
  have anywhere : Reports (checker.explain user permission) (checker.Fails facts user permission) :=
    explain_reports tells inTime
  refine ⟨anywhere, anywhere.map _, fun answers => ?_, fun error fails => ?_⟩
  · have onResource : Reports (checker.explainResource user resourceType resourceId permission now)
        (checker.FailsOn facts user resourceType resourceId permission now) :=
      explainResource_reports tells inTime answers
    exact ⟨onResource, onResource.map _⟩
  · rcases fails with fails | fails
    · exact StoreFacts.Fails.classified fails
    · exact StoreFacts.Fails.classified fails

/-- A user whose role names a permission that has never been registered. -/
def haunted : MemoryStore :=
  { MemoryStore.empty with
    users := (∅ : Std.ExtTreeMap UserId StoredUser).insert "ann" ⟨false, .oidc, {"broken"}⟩
    roles := (∅ : Std.ExtTreeMap RoleId StoredRole).insert "broken" ⟨"broken", {"edit", "ghost"}⟩ }

def hauntedUser : Principal := ⟨"ann", false, .oidc, [⟨"broken", "broken", ["edit", "ghost"]⟩], []⟩

def hauntedChecker : Checker := { registry := .editing, source := Store.source haunted }

/-- The role is at fault although it also grants what is asked for. -/
theorem explain_names_ghost :
    hauntedChecker.source.Tells haunted.facts .none ∧ hauntedChecker.InTime .none ∧
      hauntedChecker.explain "ann" "edit" = .error (.unknownPermission "ghost") := by
  have tells : hauntedChecker.source.Tells haunted.facts .none := haunted.source_tells
  have inTime : hauntedChecker.InTime .none := fun limit _ => Nat.zero_le _
  have reports := (reports_failures tells inTime "ann" "edit" "doc" "7" 0).1
  have present : haunted.facts.principal "ann" = some hauntedUser := by decide
  have verified : ¬ haunted.facts.Pending true hauntedUser := fun pending => absurd pending.2.1 (by decide)
  have given : Given (globalArguments "ann" "edit") := by unfold Given; decide
  have held : ∀ id, id ∈ hauntedUser.permissions ∪ ∅ ↔ id = "edit" ∨ id = "ghost" := by
    simp [Principal.permissions, hauntedUser]
  have missing : "ghost" ∉ Registry.editing := by simp [Registry.editing]
  have registered : "edit" ∈ Registry.editing ∧ "read" ∈ Registry.editing := by simp [Registry.editing]
  have ghost : "ghost" ∈ Registry.editing.impliedBy (hauntedUser.permissions ∪ ∅) :=
    Registry.subset_impliedBy ((held "ghost").mpr (.inr rfl))
  refine ⟨tells, inTime, ?_⟩
  cases result : hauntedChecker.explain "ann" "edit" with
  | ok decision =>
    exact absurd (.unknownGrant given present rfl verified ghost missing) (reports.answer decision result _)
  | error error =>
    cases reports.error error result with
    | blank split _ blank => simp [given _ (split ▸ List.mem_append_right _ List.mem_cons_self)] at blank
    | noUser _ absent => simp [present] at absent
    | unknownGrant _ known _ _ implied unknown =>
      obtain rfl := Option.some.inj (present.symm.trans known)
      obtain ⟨root, grant, path⟩ := implied
      rcases path.cases_tail with rfl | ⟨_, _, edge⟩
      · rcases (held _).mp grant with rfl | rfl
        · exact absurd registered.1 unknown
        · rfl
      · obtain ⟨_, rfl⟩ := Registry.editing_implies_iff.mp edge
        exact absurd registered.2 unknown
    | unknownPermission _ known _ loadable =>
      obtain rfl := Option.some.inj (present.symm.trans known)
      exact absurd (loadable verified _ ghost) missing
    | unknownRequirement _ known _ loadable =>
      obtain rfl := Option.some.inj (present.symm.trans known)
      exact absurd (loadable verified _ ghost) missing
    | cycle _ known _ loadable =>
      obtain rfl := Option.some.inj (present.symm.trans known)
      exact absurd (loadable verified _ ghost) missing

end Checker

end AccessControl
