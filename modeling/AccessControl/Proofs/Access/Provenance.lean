import AccessControl.Proofs.Access.Authorization

namespace AccessControl

namespace StoreFacts

/-- Two users, each as a store tells of them, are root or not, have to verify or not, and hold the same. -/
structure Equals (facts others : StoreFacts) (enforced otherEnforced : Bool) (extra more : Principal → Set PermissionId)
    (principal other : Principal) : Prop where
  root : principal.isRoot = other.isRoot
  pending : facts.Pending enforced principal ↔ others.Pending otherEnforced other
  held : principal.permissions ∪ extra principal = other.permissions ∪ more other

end StoreFacts

namespace Checker

variable {checker second : Checker} {facts others : StoreFacts} {times otherTimes : ReadTimes}
  {user otherUser : UserId} {principal other : Principal} {permission : PermissionId} {enforced otherEnforced : Bool}
  {extra more : Principal → Set PermissionId} {outcome otherOutcome : Except LoadError UserGrants}
  {grants otherGrants : UserGrants} {resourceType resourceId : String} {now : Timestamp}

/-- A decision says nothing of whom it is about, nor of the user's teams. -/
theorem decide_congr (sameRegistry : checker.registry = second.registry) (isRoot : grants.isRoot = otherGrants.isRoot)
    (pending : grants.verificationPending = otherGrants.verificationPending)
    (permissions : grants.permissions = otherGrants.permissions) :
    checker.decide grants permission = second.decide otherGrants permission := by
  have holds : grants.holds = otherGrants.holds := by
    funext id
    rw [UserGrants.holds, UserGrants.holds, permissions]
  have missing : grants.missing = otherGrants.missing := by
    funext required
    rw [UserGrants.missing, UserGrants.missing, holds]
  rw [decide, decide, sameRegistry, isRoot, pending, holds, missing]

theorem decideLoaded_alike (sameRegistry : checker.registry = second.registry)
    (shape : facts.Loads checker.registry enforced user extra outcome)
    (otherShape : others.Loads second.registry otherEnforced otherUser more otherOutcome)
    (present : facts.principal user = some principal) (otherPresent : others.principal otherUser = some other)
    (equals : facts.Equals others enforced otherEnforced extra more principal other) :
    (checker.decideLoaded permission outcome).toOption = (second.decideLoaded permission otherOutcome).toOption := by
  obtain ⟨root, pending, held⟩ := equals
  cases isRoot : principal.isRoot with
  | true =>
    have same : checker.decide (.root user) permission = second.decide (.root otherUser) permission :=
      decide_congr sameRegistry rfl rfl rfl
    rw [shape.eq_root present isRoot, otherShape.eq_root otherPresent (root ▸ isRoot), decideLoaded_ok, decideLoaded_ok,
      same]
  | false =>
    have otherNotRoot : other.isRoot = false := root ▸ isRoot
    by_cases isPending : facts.Pending enforced principal
    · have same : checker.decide (.pending user principal.teamIds) permission =
          second.decide (.pending otherUser other.teamIds) permission := decide_congr sameRegistry rfl rfl rfl
      rw [shape.eq_pending present isRoot isPending,
        otherShape.eq_pending otherPresent otherNotRoot (pending.mp isPending), decideLoaded_ok, decideLoaded_ok, same]
    · have otherVerified : ¬ others.Pending otherEnforced other := fun there => isPending (pending.mpr there)
      have loaded := shape.eq_granted present isRoot isPending
      have otherLoaded := otherShape.eq_granted otherPresent otherNotRoot otherVerified
      rw [← held, ← sameRegistry] at otherLoaded
      -- One closure is at stake on both sides: all of it is registered for both or for neither.
      rcases loaded with ⟨permissions, rfl, closure, registered⟩ | ⟨culprit, implied, missing, rfl⟩
      · rcases otherLoaded with ⟨otherPermissions, rfl, otherClosure, _⟩ | ⟨culprit, implied, missing, _⟩
        · have samePermissions : permissions = otherPermissions :=
            Std.ExtTreeSet.ext_mem fun id => (closure id).trans (otherClosure id).symm
          have same : checker.decide (.granted user principal.teamIds permissions) permission =
              second.decide (.granted otherUser other.teamIds otherPermissions) permission :=
            decide_congr sameRegistry rfl rfl samePermissions
          rw [decideLoaded_ok, decideLoaded_ok, same]
        · exact absurd (registered culprit implied) missing
      · rcases otherLoaded with ⟨_, _, _, registered⟩ | ⟨_, _, _, rfl⟩
        · exact absurd (registered culprit implied) missing
        · rfl

/-- Users who are root or not, have to verify or not, and hold the same, get the same decision about a permission or
none at all, whatever store each is in and whichever of roles, teams and grants what is held comes from. Only blank
arguments have to be told apart, since these are refused before anything is looked up, and users who have too many teams
for the store to be asked for their grants. -/
theorem decision_by_holdings (sameRegistry : checker.registry = second.registry)
    (tells : checker.source.Tells facts times) (inTime : checker.InTime times)
    (otherTells : second.source.Tells others otherTimes) (otherInTime : second.InTime otherTimes)
    (present : facts.principal user = some principal) (otherPresent : others.principal otherUser = some other)
    (permission : PermissionId) :
    (facts.Equals others checker.config.enforceVerification second.config.enforceVerification (fun _ => ∅) (fun _ => ∅)
        principal other →
      (Given (globalArguments user permission) ↔ Given (globalArguments otherUser permission)) →
      (checker.explain user permission).toOption = (second.explain otherUser permission).toOption) ∧
    ∀ resourceType resourceId now otherType otherId otherNow,
      facts.Equals others checker.config.enforceVerification second.config.enforceVerification
        (facts.permissionsOn user resourceType resourceId now)
        (others.permissionsOn otherUser otherType otherId otherNow) principal other →
      (Given (resourceArguments user resourceType resourceId permission) ↔
        Given (resourceArguments otherUser otherType otherId permission)) →
      (facts.Answers checker.config.enforceVerification user ↔
        others.Answers second.config.enforceVerification otherUser) →
      (checker.explainResource user resourceType resourceId permission now).toOption =
        (second.explainResource otherUser otherType otherId permission otherNow).toOption := by
  constructor
  · intro equals bothGiven
    by_cases given : Given (globalArguments user permission)
    · obtain ⟨outcome, shape, result⟩ := explain_outcome tells inTime given
      obtain ⟨otherOutcome, otherShape, otherResult⟩ := explain_outcome otherTells otherInTime (bothGiven.mp given)
      rw [result, otherResult]
      exact decideLoaded_alike sameRegistry shape otherShape present otherPresent equals
    · obtain ⟨field, refused⟩ := checker.explain_of_blank given
      obtain ⟨otherField, otherRefused⟩ := second.explain_of_blank (given ∘ bothGiven.mpr)
      rw [refused, otherRefused]
      rfl
  · intro resourceType resourceId now otherType otherId otherNow equals bothGiven bothAnswer
    by_cases given : Given (resourceArguments user resourceType resourceId permission)
    · obtain ⟨outcome, shape, result⟩ := explainResource_outcome tells inTime given now
      obtain ⟨otherOutcome, otherShape, otherResult⟩ :=
        explainResource_outcome otherTells otherInTime (bothGiven.mp given) otherNow
      rw [result, otherResult]
      rcases shape with ⟨answers, shape⟩ | ⟨refused, error, rfl⟩
      · rcases otherShape with ⟨_, otherShape⟩ | ⟨otherRefused, _⟩
        · exact decideLoaded_alike sameRegistry shape otherShape present otherPresent equals
        · exact absurd (bothAnswer.mp answers) otherRefused
      · rcases otherShape with ⟨otherAnswers, _⟩ | ⟨_, otherError, rfl⟩
        · exact absurd (bothAnswer.mpr otherAnswers) refused
        · rfl
    · obtain ⟨field, refused⟩ := checker.explainResource_of_blank given
      obtain ⟨otherField, otherRefused⟩ := second.explainResource_of_blank (given ∘ bothGiven.mpr)
      rw [refused, otherRefused]
      rfl

/-- An editor by role, another through a team and by name on one document, and a root user. -/
def newsroom : MemoryStore :=
  { MemoryStore.empty with
    users := (((∅ : Std.ExtTreeMap UserId StoredUser).insert "ann" ⟨false, .oidc, {"editor"}⟩).insert "bob"
      ⟨false, .saml, ∅⟩).insert "eve" ⟨true, .ldap, ∅⟩
    roles := (∅ : Std.ExtTreeMap RoleId StoredRole).insert "editor" ⟨"editor", {"edit", "read"}⟩
    teams := (∅ : Std.ExtTreeMap TeamId StoredTeam).insert "writers" ⟨"Writers", {"bob"}, ∅⟩
    grants := [⟨⟨"doc", "7", ⟨.team, "writers"⟩, "edit"⟩, some 9⟩, ⟨⟨"doc", "7", ⟨.user, "bob"⟩, "read"⟩, none⟩] }

def newsroomChecker : Checker := { registry := .editing, source := Store.source newsroom }

def byRole : Principal := ⟨"ann", false, .oidc, [⟨"editor", "editor", ["edit", "read"]⟩], []⟩

def byGrants : Principal := ⟨"bob", false, .saml, [], [⟨"writers", "Writers", []⟩]⟩

def byFlag : Principal := ⟨"eve", true, .ldap, [], []⟩

theorem byRole_held (id : PermissionId) :
    id ∈ byRole.permissions ∪ newsroom.facts.permissionsOn "ann" "doc" "8" 3 byRole ↔ id = "edit" ∨ id = "read" := by
  simp [Principal.permissions, StoreFacts.permissionsOn, MemoryStore.facts, newsroom, byRole]

theorem byGrants_held (id : PermissionId) :
    id ∈ byGrants.permissions ∪ newsroom.facts.permissionsOn "bob" "doc" "7" 8 byGrants ↔ id = "edit" ∨ id = "read" := by
  simp [Principal.permissions, StoreFacts.permissionsOn, MemoryStore.facts, newsroom, byGrants, eq_comm]

theorem newsroom_equal :
    newsroom.facts.Equals newsroom.facts true true (newsroom.facts.permissionsOn "ann" "doc" "8" 3)
      (newsroom.facts.permissionsOn "bob" "doc" "7" 8) byRole byGrants where
  root := rfl
  pending := by simp [StoreFacts.Pending, byRole, byGrants]
  held := Set.ext fun id => (byRole_held id).trans (byGrants_held id).symm

/-- The editor by role is allowed just what the editor by grants is, on another document and at another time. -/
theorem newsroom_decided_alike :
    newsroomChecker.source.Tells newsroom.facts .none ∧ newsroomChecker.InTime .none ∧
      newsroom.facts.principal "ann" = some byRole ∧ newsroom.facts.principal "bob" = some byGrants ∧
      (Given (resourceArguments "ann" "doc" "8" "edit") ↔ Given (resourceArguments "bob" "doc" "7" "edit")) ∧
      (newsroomChecker.explainResource "ann" "doc" "8" "edit" 3).toOption =
        (newsroomChecker.explainResource "bob" "doc" "7" "edit" 8).toOption ∧
      ∃ decision, newsroomChecker.explainResource "ann" "doc" "8" "edit" 3 = .ok decision ∧ decision.allowed = true := by
  have tells : newsroomChecker.source.Tells newsroom.facts .none := newsroom.source_tells
  have inTime : newsroomChecker.InTime .none := fun limit _ => Nat.zero_le _
  have present : newsroom.facts.principal "ann" = some byRole := by decide
  have otherPresent : newsroom.facts.principal "bob" = some byGrants := by decide
  have given : Given (resourceArguments "ann" "doc" "8" "edit") := by unfold Given; decide
  have otherGiven : Given (resourceArguments "bob" "doc" "7" "edit") := by unfold Given; decide
  have bothGiven := iff_of_true given otherGiven
  have alike := (decision_by_holdings rfl tells inTime tells inTime present otherPresent "edit").2 "doc" "8" 3 "doc" "7" 8
    newsroom_equal bothGiven (iff_of_true (newsroom.answers _ _) (newsroom.answers _ _))
  refine ⟨tells, inTime, present, otherPresent, bothGiven, alike, ?_⟩
  obtain ⟨outcome, shape, result⟩ := explainResource_of_answers tells inTime (newsroom.answers _ _) given
  rw [result, decideLoaded_allowed_iff shape]
  have known : ∀ id, id = "edit" ∨ id = "read" → id ∈ Registry.editing := by
    rintro id (rfl | rfl) <;> simp [Registry.editing]
  refine ⟨byRole, present, .inr ⟨fun pending => absurd pending.2.1 (by decide), ?_, ?_, ?_⟩⟩
  · exact fun id => Registry.editing_safe.mem_of_implied fun root given => known root ((byRole_held root).mp given)
  · exact Registry.editing_safe.resolvable (known "edit" (.inl rfl))
  · intro id needed
    refine Registry.subset_impliedBy ((byRole_held id).mpr ?_)
    rcases needed with rfl | required
    · exact .inl rfl
    · exact .inr (Registry.mem_editing_requirements_iff.mp required).2

/-- A resource without a type is refused also to one who holds the same there as on any other, which is everything. -/
theorem blank_type_refused :
    newsroom.facts.principal "eve" = some byFlag ∧
      newsroom.facts.Equals newsroom.facts true true (newsroom.facts.permissionsOn "eve" "doc" "7" 8)
        (newsroom.facts.permissionsOn "eve" " " "7" 8) byFlag byFlag ∧
      newsroomChecker.explainResource "eve" "doc" "7" "edit" 8 = .ok (.of "edit" .root) ∧
      newsroomChecker.explainResource "eve" " " "7" "edit" 8 = .error (.invalidInput "resource_type") := by
  refine ⟨by decide, ⟨rfl, Iff.rfl, ?_⟩, rfl, rfl⟩
  ext id
  simp [Principal.permissions, StoreFacts.permissionsOn, MemoryStore.facts, newsroom, byFlag]

end Checker

end AccessControl
