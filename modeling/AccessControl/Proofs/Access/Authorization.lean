import AccessControl.Proofs.Access.Checking
import AccessControl.Proofs.Registry.Validation

namespace AccessControl

/-- What is held, with all it implies, is registered and covers the permission and its requirements. -/
structure Registry.Entitles (registry : Registry) (held : Set PermissionId) (permission : PermissionId) : Prop where
  known : ∀ id ∈ registry.impliedBy held, id ∈ registry
  resolvable : registry.Resolvable permission
  covered : {permission} ∪ registry.requirements permission ⊆ registry.impliedBy held

theorem Registry.editing_entitles {held : Set PermissionId} (given : ∀ id, id ∈ held ↔ id = "edit") :
    editing.Entitles held "edit" := by
  have edits : "edit" ∈ editing.impliedBy held := subset_impliedBy ((given "edit").mpr rfl)
  refine ⟨fun id => editing_safe.mem_of_implied fun root member => ?_,
    editing_safe.resolvable (by simp [editing]), fun id needed => ?_⟩
  · rw [(given root).mp member]
    simp [editing]
  · rcases needed with rfl | required
    · exact edits
    · obtain ⟨_, rfl⟩ := mem_editing_requirements_iff.mp required
      exact implied_mem_impliedBy edits (editing_implies_iff.mpr ⟨rfl, rfl⟩)

/-- The user exists, and is root or has nothing left to verify and holds enough. -/
def StoreFacts.Allows (facts : StoreFacts) (registry : Registry) (enforced : Bool) (user : UserId)
    (extra : Principal → Set PermissionId) (permission : PermissionId) : Prop :=
  ∃ principal, facts.principal user = some principal ∧
    (principal.isRoot = true ∨ ¬ facts.Pending enforced principal ∧
      registry.Entitles (principal.permissions ∪ extra principal) permission)

namespace Checker

variable {checker : Checker} {facts : StoreFacts} {times : ReadTimes} {user : UserId} {permission : PermissionId}
  {resourceType resourceId : String} {now : Timestamp} {enforced : Bool} {extra : Principal → Set PermissionId}
  {outcome : Except LoadError UserGrants}

theorem decide_granted_iff {held : Set PermissionId} {teamIds : List TeamId} {permissions : PermissionSet}
    (closure : ∀ id, id ∈ permissions ↔ id ∈ checker.registry.impliedBy held)
    (registered : ∀ id ∈ permissions, id ∈ checker.registry) :
    (∃ decision, checker.decide (.granted user teamIds permissions) permission = .ok decision ∧
      decision.allowed = true) ↔ checker.registry.Entitles held permission := by
  rw [decide_allowed_iff isRoot_granted]
  constructor
  · intro allowed
    obtain ⟨resolvable, _, member, required⟩ := allowed
    refine ⟨fun id implied => registered id ((closure id).mpr implied), resolvable, ?_⟩
    intro id needed
    rcases needed with rfl | requirement
    · exact (closure _).mp member
    · exact (closure id).mp (required id requirement)
  · intro entitles
    obtain ⟨_, resolvable, covered⟩ := entitles
    refine ⟨resolvable, rfl, (closure permission).mpr (covered (.inl rfl)), fun id required => ?_⟩
    exact (closure id).mpr (covered (.inr required))

theorem decideLoaded_allowed_iff (shape : facts.Loads checker.registry enforced user extra outcome) :
    (∃ decision, checker.decideLoaded permission outcome = .ok decision ∧ decision.allowed = true) ↔
      facts.Allows checker.registry enforced user extra permission := by
  cases shape with
  | missing absent =>
    constructor
    · intro allowed
      obtain ⟨_, failed, _⟩ := allowed
      cases failed
    · intro allows
      obtain ⟨_, present, _⟩ := allows
      simp [absent] at present
  | @root principal present isRoot =>
    constructor
    · exact fun _ => ⟨principal, present, .inl isRoot⟩
    · intro _
      exact ⟨_, decideLoaded_ok.trans (decide_root isRoot_root), rfl⟩
  | @pending principal present notRoot pending =>
    constructor
    · intro allowed
      exact absurd ((decide_allowed_iff isRoot_pending).mp allowed).2.1 (by simp [UserGrants.pending])
    · intro allows
      obtain ⟨other, known, allows⟩ := allows
      obtain rfl : principal = other := Option.some.inj (present.symm.trans known)
      rcases allows with isRoot | ⟨verified, _⟩
      · simp [notRoot] at isRoot
      · exact absurd pending verified
  | @granted principal permissions present notRoot verified closure registered =>
    rw [decideLoaded_ok, decide_granted_iff closure registered]
    constructor
    · exact fun entitles => ⟨principal, present, .inr ⟨verified, entitles⟩⟩
    · intro allows
      obtain ⟨other, known, allows⟩ := allows
      obtain rfl : principal = other := Option.some.inj (present.symm.trans known)
      exact (allows.resolve_left (by simp [notRoot])).2
  | @unknown principal culprit present notRoot verified implied missing =>
    constructor
    · intro allowed
      obtain ⟨_, failed, _⟩ := allowed
      cases failed
    · intro allows
      obtain ⟨other, known, allows⟩ := allows
      obtain rfl : principal = other := Option.some.inj (present.symm.trans known)
      exact absurd ((allows.resolve_left (by simp [notRoot])).2.known culprit implied) missing

theorem map_allowed_eq_true_iff {result : Except CheckError Decision} :
    (do return (← result).allowed : Except CheckError Bool) = .ok true ↔
      ∃ decision, result = .ok decision ∧ decision.allowed = true := by
  cases result <;> simp [Functor.map, Except.map]

theorem explain_allows_iff (tells : checker.source.Tells facts times) (inTime : checker.InTime times)
    (given : Given (globalArguments user permission)) :
    (∃ decision, checker.explain user permission = .ok decision ∧ decision.allowed = true) ↔
      facts.Allows checker.registry checker.config.enforceVerification user (fun _ => ∅) permission := by
  obtain ⟨outcome, shape, result⟩ := explain_outcome tells inTime given
  rw [result, decideLoaded_allowed_iff shape]

theorem explainResource_allows_iff (tells : checker.source.Tells facts times) (inTime : checker.InTime times)
    (given : Given (resourceArguments user resourceType resourceId permission)) :
    (∃ decision, checker.explainResource user resourceType resourceId permission now = .ok decision ∧
        decision.allowed = true) ↔
      facts.Answers checker.config.enforceVerification user ∧
        facts.Allows checker.registry checker.config.enforceVerification user
          (facts.permissionsOn user resourceType resourceId now) permission := by
  obtain ⟨outcome, shape, result⟩ := explainResource_outcome tells inTime given now
  rw [result]
  rcases shape with ⟨answers, shape⟩ | ⟨refused, error, rfl⟩
  · rw [decideLoaded_allowed_iff shape, and_iff_right answers]
  · exact iff_of_false (fun allowed => by cases allowed.choose_spec.1) fun allowed => refused allowed.1

/-- A check allows exactly what is allowed by what the store tells: nothing else is let through, and nothing of it is
lost, unless a check on a resource cannot ask for the grants there. -/
theorem allowed_iff (tells : checker.source.Tells facts times) (inTime : checker.InTime times)
    (userGiven : Text.isBlank user = false) (permissionGiven : Text.isBlank permission = false) :
    ((∃ decision, checker.explain user permission = .ok decision ∧ decision.allowed = true) ↔
      facts.Allows checker.registry checker.config.enforceVerification user (fun _ => ∅) permission) ∧
    (checker.check user permission = .ok true ↔
      facts.Allows checker.registry checker.config.enforceVerification user (fun _ => ∅) permission) ∧
    ∀ resourceType resourceId now, Text.isBlank resourceType = false → Text.isBlank resourceId = false →
      ((∃ decision, checker.explainResource user resourceType resourceId permission now = .ok decision ∧
          decision.allowed = true) ↔
        facts.Answers checker.config.enforceVerification user ∧
          facts.Allows checker.registry checker.config.enforceVerification user
            (facts.permissionsOn user resourceType resourceId now) permission) ∧
      (checker.checkResource user resourceType resourceId permission now = .ok true ↔
        facts.Answers checker.config.enforceVerification user ∧
          facts.Allows checker.registry checker.config.enforceVerification user
            (facts.permissionsOn user resourceType resourceId now) permission) := by
  have everywhere : (∃ decision, checker.explain user permission = .ok decision ∧ decision.allowed = true) ↔
      facts.Allows checker.registry checker.config.enforceVerification user (fun _ => ∅) permission :=
    explain_allows_iff tells inTime (by simp [Given, globalArguments, userGiven, permissionGiven])
  refine ⟨everywhere, map_allowed_eq_true_iff.trans everywhere, ?_⟩
  intro resourceType resourceId now typeGiven idGiven
  have onResource : (∃ decision, checker.explainResource user resourceType resourceId permission now = .ok decision ∧
        decision.allowed = true) ↔
      facts.Answers checker.config.enforceVerification user ∧
        facts.Allows checker.registry checker.config.enforceVerification user
          (facts.permissionsOn user resourceType resourceId now) permission :=
    explainResource_allows_iff tells inTime
      (by simp [Given, resourceArguments, userGiven, permissionGiven, typeGiven, idGiven])
  exact ⟨onResource, map_allowed_eq_true_iff.trans onResource⟩

/-- A team of one, which may edit one document for some time. -/
def writers : MemoryStore :=
  { MemoryStore.empty with
    users := (∅ : Std.ExtTreeMap UserId StoredUser).insert "ann" ⟨false, .oidc, ∅⟩
    teams := (∅ : Std.ExtTreeMap TeamId StoredTeam).insert "writers" ⟨"Writers", {"ann"}, ∅⟩
    grants := [⟨⟨"doc", "7", ⟨.team, "writers"⟩, "edit"⟩, some 9⟩] }

def writer : Principal := ⟨"ann", false, .oidc, [], [⟨"writers", "Writers", []⟩]⟩

theorem writers_held (now : Timestamp) (id : PermissionId) :
    id ∈ writer.permissions ∪ writers.facts.permissionsOn "ann" "doc" "7" now writer ↔ now < 9 ∧ id = "edit" := by
  simp [Principal.permissions, StoreFacts.permissionsOn, MemoryStore.facts, writers, writer, eq_comm]

def writersChecker : Checker := { registry := .editing, source := Store.source writers }

/-- Until the grant expires the user may edit the document, and from then on no more. -/
theorem allowed_until_expiry :
    writersChecker.source.Tells writers.facts .none ∧ writersChecker.InTime .none ∧
      Text.isBlank "ann" = false ∧ Text.isBlank "edit" = false ∧ Text.isBlank "doc" = false ∧
      Text.isBlank "7" = false ∧
      writersChecker.checkResource "ann" "doc" "7" "edit" 8 = .ok true ∧
      writersChecker.checkResource "ann" "doc" "7" "edit" 9 ≠ .ok true := by
  have tells : writersChecker.source.Tells writers.facts .none := writers.source_tells
  have inTime : writersChecker.InTime .none := fun limit _ => Nat.zero_le _
  have userGiven : Text.isBlank "ann" = false := by decide
  have permissionGiven : Text.isBlank "edit" = false := by decide
  have present : writers.facts.principal "ann" = some writer := by decide
  have decided := (allowed_iff tells inTime userGiven permissionGiven).2.2
  refine ⟨tells, inTime, userGiven, permissionGiven, by decide, by decide, ?_, ?_⟩
  · rw [(decided "doc" "7" 8 (by decide) (by decide)).2]
    have edits : "edit" ∈ Registry.editing.impliedBy
        (writer.permissions ∪ writers.facts.permissionsOn "ann" "doc" "7" 8 writer) :=
      Registry.subset_impliedBy ((writers_held 8 "edit").mpr ⟨by decide, rfl⟩)
    refine ⟨writers.answers _ _, writer, present, .inr ⟨fun pending => absurd pending.2.1 (by decide), ?_, ?_, ?_⟩⟩
    · refine fun id => Registry.editing_safe.mem_of_implied fun root given => ?_
      obtain ⟨_, rfl⟩ := (writers_held 8 root).mp given
      simp [Registry.editing]
    · exact Registry.editing_safe.resolvable (by simp [Registry.editing])
    · intro id needed
      rcases needed with rfl | required
      · exact edits
      · obtain ⟨_, rfl⟩ := Registry.mem_editing_requirements_iff.mp required
        exact Registry.implied_mem_impliedBy edits (Registry.editing_implies_iff.mpr ⟨rfl, rfl⟩)
  · rw [Ne, (decided "doc" "7" 9 (by decide) (by decide)).2]
    intro allows
    obtain ⟨_, other, known, allows⟩ := allows
    obtain rfl : writer = other := Option.some.inj (present.symm.trans known)
    obtain ⟨root, given, _⟩ := (allows.resolve_left (by decide)).2.covered (.inl rfl)
    exact absurd ((writers_held 9 root).mp given).1 (by decide)

end Checker

end AccessControl
