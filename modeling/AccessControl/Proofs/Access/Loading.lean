import AccessControl.Proofs.Access.Facts
import AccessControl.Proofs.Registry.Closure

namespace AccessControl

open Transition

def Principal.permissions (principal : Principal) : Set PermissionId :=
  {id | ∃ role, (role ∈ principal.roles ∨ ∃ team ∈ principal.teams, role ∈ team.roles) ∧ id ∈ role.permissions}

theorem Principal.mem_rolePermissions {principal : Principal} {id : PermissionId} :
    id ∈ principal.rolePermissions ↔ id ∈ principal.permissions := by
  simp only [rolePermissions, permissions, List.mem_flatMap, List.mem_append, Set.mem_ofPred_eq]

namespace StoreFacts

variable {facts : StoreFacts} {registry : Registry} {enforced : Bool} {user : UserId} {principal : Principal}
  {extra : Principal → Set PermissionId} {outcome : Except LoadError UserGrants}

/-- The user has been asked to verify an email address, is one of those of whom that is required, and has not
done so. -/
def Pending (facts : StoreFacts) (enforced : Bool) (principal : Principal) : Prop :=
  enforced = true ∧ principal.provider = .localAccounts ∧ facts.verificationRequired = true ∧
    ∃ record, facts.verification principal.userId = some record ∧ record.verifiedAt = none

/-- The store can be asked for the grants of the user and of the user's teams, unless these would not count anyway. -/
def Answers (facts : StoreFacts) (enforced : Bool) (user : UserId) : Prop :=
  ∀ principal, facts.principal user = some principal → principal.isRoot = false → ¬ facts.Pending enforced principal →
    facts.refusal principal.teamIds = none

/-- What grants on a resource give to a user or to one of the user's teams, as far as they have not expired. -/
def permissionsOn (facts : StoreFacts) (user : UserId) (resourceType resourceId : String) (now : Timestamp)
    (principal : Principal) : Set PermissionId :=
  {id | ∃ grant ∈ facts.grants, grant.resourceType = resourceType ∧ grant.resourceId = resourceId ∧
    (grant.holder = ⟨.user, user⟩ ∨ ∃ team ∈ principal.teams, grant.holder = ⟨.team, team.id⟩) ∧
    (∀ time, grant.expiresAt = some time → now < time) ∧ grant.permission = id}

/-- What a query for these grants finds that counts at the time. -/
def liveOn (facts : StoreFacts) (user : UserId) (resourceType resourceId : String) (now : Timestamp)
    (principal : Principal) : List PermissionId :=
  ((facts.grantsFor { resourceType, resourceId, userId := user, teamIds := principal.teamIds, now }).filter
    fun grant => grant.isActive now).map fun grant => grant.permission

/-- How loading a user's grants can come out, `extra` being what is granted besides the roles. -/
inductive Loads (facts : StoreFacts) (registry : Registry) (enforced : Bool) (user : UserId)
    (extra : Principal → Set PermissionId) : Except LoadError UserGrants → Prop where
  | missing (absent : facts.principal user = none) : Loads facts registry enforced user extra (.error (.userNotFound user))
  | root {principal : Principal} (present : facts.principal user = some principal)
    (isRoot : principal.isRoot = true) : Loads facts registry enforced user extra (.ok (.root user))
  | pending {principal : Principal} (present : facts.principal user = some principal)
    (notRoot : principal.isRoot = false) (pending : facts.Pending enforced principal) :
    Loads facts registry enforced user extra (.ok (.pending user principal.teamIds))
  | granted {principal : Principal} {permissions : PermissionSet} (present : facts.principal user = some principal)
    (notRoot : principal.isRoot = false) (verified : ¬ facts.Pending enforced principal)
    (closure : ∀ id, id ∈ permissions ↔ id ∈ registry.impliedBy (principal.permissions ∪ extra principal))
    (registered : ∀ id ∈ permissions, id ∈ registry) :
    Loads facts registry enforced user extra (.ok (.granted user principal.teamIds permissions))
  | unknown {principal : Principal} {culprit : PermissionId} (present : facts.principal user = some principal)
    (notRoot : principal.isRoot = false) (verified : ¬ facts.Pending enforced principal)
    (implied : culprit ∈ registry.impliedBy (principal.permissions ∪ extra principal))
    (missing : culprit ∉ registry) :
    Loads facts registry enforced user extra (.error (.registry (.unknownPermission culprit)))

theorem pending_iff :
    facts.Pending enforced principal ↔ (enforced && principal.provider.isLocal && facts.verificationRequired &&
      (facts.verification principal.userId).any fun record => !record.isComplete) = true := by
  have isLocal : principal.provider.isLocal = true ↔ principal.provider = .localAccounts := by
    cases principal.provider <;> simp [AuthProvider.isLocal]
  simp only [Pending, Bool.and_eq_true, isLocal, and_assoc]
  cases facts.verification principal.userId <;> simp [Verification.isComplete]

instance : Decidable (facts.Pending enforced principal) :=
  decidable_of_iff _ pending_iff.symm

theorem answers_iff (present : facts.principal user = some principal) (notRoot : principal.isRoot = false)
    (verified : ¬ facts.Pending enforced principal) :
    facts.Answers enforced user ↔ facts.refusal principal.teamIds = none := by
  refine ⟨fun answers => answers principal present notRoot verified, fun taken other known _ _ => ?_⟩
  obtain rfl : principal = other := Option.some.inj (present.symm.trans known)
  exact taken

/-- No grants on resources are asked for where they would not count. -/
theorem answers_of_withheld (present : facts.principal user = some principal)
    (withheld : principal.isRoot = true ∨ facts.Pending enforced principal) : facts.Answers enforced user := by
  intro other known notRoot verified
  obtain rfl : principal = other := Option.some.inj (present.symm.trans known)
  rcases withheld with isRoot | pending
  · simp [isRoot] at notRoot
  · exact absurd pending verified

/-- Expanding just what is held grants its closure, or fails for an id of it. -/
theorem Loads.of_expandImplied {ids : List PermissionId} (present : facts.principal user = some principal)
    (notRoot : principal.isRoot = false) (verified : ¬ facts.Pending enforced principal)
    (held : {id | id ∈ ids} = principal.permissions ∪ extra principal) :
    facts.Loads registry enforced user extra
      (((registry.expandImplied ids).mapError LoadError.registry).map
        (UserGrants.granted user principal.teamIds)) := by
  cases expanded : registry.expandImplied ids with
  | ok permissions =>
    obtain ⟨members, registered⟩ := Registry.expandImplied_eq_ok expanded
    rw [held] at members registered
    exact .granted present notRoot verified members fun id member => registered id ((members id).mp member)
  | error error =>
    obtain ⟨culprit, implied, missing, rfl⟩ := Registry.expandImplied_eq_error expanded
    rw [held] at implied
    exact .unknown present notRoot verified implied missing

theorem mem_liveOn {resourceType resourceId : String} {now : Timestamp} {id : PermissionId} :
    id ∈ facts.liveOn user resourceType resourceId now principal ↔
      id ∈ facts.permissionsOn user resourceType resourceId now principal := by
  simp only [liveOn, List.mem_map, List.mem_filter, facts.mem_grantsFor, GrantQuery.isMatch_iff,
    GrantQuery.covers_iff, ResourceGrant.isActive_iff, Principal.teamIds, permissionsOn,
    Set.mem_ofPred_eq]
  constructor
  · intro listed
    obtain ⟨grant, ⟨⟨held, sameType, sameId, holder, active⟩, _⟩, same⟩ := listed
    refine ⟨grant, held, sameType, sameId, ?_, active, same⟩
    rcases holder with isUser | ⟨_, ⟨team, member, rfl⟩, isTeam⟩
    · exact .inl isUser
    · exact .inr ⟨team, member, isTeam⟩
  · intro granted
    obtain ⟨grant, held, sameType, sameId, holder, active, same⟩ := granted
    refine ⟨grant, ⟨⟨held, sameType, sameId, ?_, active⟩, active⟩, same⟩
    rcases holder with isUser | ⟨team, member, isTeam⟩
    · exact .inl isUser
    · exact .inr ⟨team.id, ⟨team, member, rfl⟩, isTeam⟩

/-- The roles and the grants are expanded apart and merged; the closure of a union is the union of closures. -/
theorem loads_merge {resourceType resourceId : String} {now : Timestamp} {permissions : PermissionSet}
    (present : facts.principal user = some principal) (notRoot : principal.isRoot = false)
    (verified : ¬ facts.Pending enforced principal)
    (closure : ∀ id, id ∈ permissions ↔ id ∈ registry.impliedBy principal.permissions)
    (registered : ∀ id ∈ permissions, id ∈ registry) :
    facts.Loads registry enforced user (facts.permissionsOn user resourceType resourceId now)
      (((registry.expandImplied (facts.liveOn user resourceType resourceId now principal)).mapError
        LoadError.registry).map (UserGrants.granted user principal.teamIds permissions).merge) := by
  have same : {id | id ∈ facts.liveOn user resourceType resourceId now principal} =
      facts.permissionsOn user resourceType resourceId now principal := Set.ext fun id => mem_liveOn
  cases expanded : registry.expandImplied (facts.liveOn user resourceType resourceId now principal) with
  | ok found =>
    obtain ⟨members, known⟩ := Registry.expandImplied_eq_ok expanded
    rw [same] at members known
    refine .granted present notRoot verified (fun id => ?_) fun id member => ?_
    · rw [Registry.impliedBy_union, Std.ExtTreeSet.mem_union_iff]
      exact or_congr (closure id) (members id)
    · rcases Std.ExtTreeSet.mem_union_iff.mp member with member | member
      · exact registered id member
      · exact known id ((members id).mp member)
  | error error =>
    obtain ⟨culprit, implied, missing, rfl⟩ := Registry.expandImplied_eq_error expanded
    rw [same] at implied
    exact .unknown present notRoot verified (Registry.impliedBy_mono (by simp) implied) missing

theorem Loads.eq_root (shape : facts.Loads registry enforced user extra outcome)
    (present : facts.principal user = some principal) (isRoot : principal.isRoot = true) : outcome = .ok (.root user) := by
  cases shape with
  | root => rfl
  | missing absent => simp [absent] at present
  | pending known notRoot | granted known notRoot | unknown known notRoot =>
    obtain rfl := Option.some.inj (present.symm.trans known)
    simp [isRoot] at notRoot

theorem Loads.eq_pending (shape : facts.Loads registry enforced user extra outcome)
    (present : facts.principal user = some principal) (notRoot : principal.isRoot = false)
    (pending : facts.Pending enforced principal) : outcome = .ok (.pending user principal.teamIds) := by
  cases shape with
  | missing absent => simp [absent] at present
  | root known isRoot =>
    obtain rfl := Option.some.inj (present.symm.trans known)
    simp [isRoot] at notRoot
  | pending known =>
    obtain rfl := Option.some.inj (present.symm.trans known)
    rfl
  | granted known _ verified | unknown known _ verified =>
    obtain rfl := Option.some.inj (present.symm.trans known)
    exact absurd pending verified

/-- The grants are just the closure of what is held, if all of it is registered. -/
theorem Loads.eq_granted (shape : facts.Loads registry enforced user extra outcome)
    (present : facts.principal user = some principal) (notRoot : principal.isRoot = false)
    (verified : ¬ facts.Pending enforced principal) :
    (∃ permissions, outcome = .ok (.granted user principal.teamIds permissions) ∧
      (∀ id, id ∈ permissions ↔ id ∈ registry.impliedBy (principal.permissions ∪ extra principal)) ∧
      ∀ id ∈ registry.impliedBy (principal.permissions ∪ extra principal), id ∈ registry) ∨
    ∃ culprit ∈ registry.impliedBy (principal.permissions ∪ extra principal), culprit ∉ registry ∧
      outcome = .error (.registry (.unknownPermission culprit)) := by
  cases shape with
  | missing absent => simp [absent] at present
  | root known isRoot =>
    obtain rfl := Option.some.inj (present.symm.trans known)
    simp [isRoot] at notRoot
  | pending known _ pending =>
    obtain rfl := Option.some.inj (present.symm.trans known)
    exact absurd pending verified
  | granted known _ _ closure registered =>
    obtain rfl := Option.some.inj (present.symm.trans known)
    exact .inl ⟨_, rfl, closure, fun id implied => registered id ((closure id).mpr implied)⟩
  | unknown known _ _ implied missing =>
    obtain rfl := Option.some.inj (present.symm.trans known)
    exact .inr ⟨_, implied, missing, rfl⟩

end StoreFacts

theorem MemoryStore.answers (store : MemoryStore) (enforced : Bool) (user : UserId) :
    store.facts.Answers enforced user :=
  fun _ _ _ _ => rfl

namespace Loader

variable {loader : Loader} {facts : StoreFacts} {times : ReadTimes} {user : UserId} {principal : Principal}

theorem load_settles {reading : Reading α} {value : α} {within : Duration}
    (settles : Settles reading (.ok value) within) : Settles reading.load (.ok value) within :=
  settles.adapt LoadError.store

theorem verificationPending_settles (tells : loader.source.Tells facts times) (principal : Principal) :
    (loader.verificationPending principal).Settles
      (.ok (decide (facts.Pending loader.enforceVerification principal)))
      (times.verificationRequired + times.verification) := by
  unfold verificationPending
  by_cases asked : (loader.enforceVerification && principal.provider.isLocal) = true
  · rw [if_pos asked]
    refine (load_settles tells.verificationRequired).bind ?_
    by_cases demanded : facts.verificationRequired = true
    · rw [if_pos demanded]
      have same : decide (facts.Pending loader.enforceVerification principal) =
          (facts.verification principal.userId).any fun record => !record.isComplete := by
        rw [Bool.eq_iff_iff, decide_eq_true_iff, StoreFacts.pending_iff, asked, demanded, Bool.true_and, Bool.true_and]
      rw [same]
      exact (load_settles (tells.verification principal.userId)).map _
    · rw [if_neg demanded]
      have notPending : ¬ facts.Pending loader.enforceVerification principal :=
        fun pending => demanded pending.2.2.1
      rw [decide_eq_false notPending]
      exact (settles_pure false).mono (Nat.zero_le _)
  · rw [if_neg asked]
    have notPending : ¬ facts.Pending loader.enforceVerification principal := by
      intro pending
      rw [StoreFacts.pending_iff] at pending
      grind
    rw [decide_eq_false notPending]
    exact (settles_pure false).mono (Nat.zero_le _)

theorem expand_settles (loader : Loader) (ids : List PermissionId) :
    (loader.expand ids).Settles ((loader.registry.expandImplied ids).mapError LoadError.registry) .zero :=
  settles_ofExcept

/-- The grants that a user has everywhere are those that the roles give. -/
theorem load_outcome (tells : loader.source.Tells facts times) (user : UserId) :
    ∃ outcome, (loader.load user).Settles outcome
        (times.principal + (times.verificationRequired + times.verification)) ∧
      facts.Loads loader.registry loader.enforceVerification user (fun _ => ∅) outcome := by
  have principal := load_settles (tells.principal user)
  cases found : facts.principal user with
  | none =>
    rw [found] at principal
    have settled : (loader.load user).Settles (.error (.userNotFound user)) (times.principal + .zero) :=
      principal.bind (settles_throw _)
    exact ⟨_, settled.mono (by simp), .missing found⟩
  | some known =>
    rw [found] at principal
    by_cases isRoot : known.isRoot = true
    · have settled : (loader.load user).Settles (.ok (.root user)) (times.principal + .zero) := by
        refine principal.bind ?_
        dsimp only
        rw [if_pos isRoot]
        exact settles_pure _
      exact ⟨_, settled.mono (by simp), .root found isRoot⟩
    · have notRoot : known.isRoot = false := by simpa using isRoot
      have gate := verificationPending_settles tells known
      by_cases pending : facts.Pending loader.enforceVerification known
      · rw [decide_eq_true pending] at gate
        have settled : (loader.load user).Settles (.ok (.pending user known.teamIds))
            (times.principal + (times.verificationRequired + times.verification + .zero)) := by
          refine principal.bind ?_
          dsimp only
          rw [if_neg isRoot]
          exact gate.bind (settles_pure _)
        exact ⟨_, settled.mono (by simp), .pending found notRoot pending⟩
      · rw [decide_eq_false pending] at gate
        have settled : (loader.load user).Settles
            (((loader.registry.expandImplied known.rolePermissions).mapError LoadError.registry).map
              (UserGrants.granted user known.teamIds))
            (times.principal + (times.verificationRequired + times.verification + .zero)) := by
          refine principal.bind ?_
          dsimp only
          rw [if_neg isRoot]
          exact gate.bind ((expand_settles loader known.rolePermissions).map _)
        have held : {id | id ∈ known.rolePermissions} = known.permissions ∪ ∅ := by
          ext id
          simp [Principal.mem_rolePermissions]
        exact ⟨_, settled.mono (by simp), .of_expandImplied found notRoot pending held⟩

theorem merge_empty (grants : UserGrants) : grants.merge ∅ = grants := by
  have same : grants.permissions ∪ ∅ = grants.permissions := Std.ExtTreeSet.ext_mem (by simp)
  rw [UserGrants.merge, same]

/-- The source is asked about one who has been granted something. The answer is expanded, and a refusal is passed on. -/
theorem resourcePermissions_settles (tells : loader.source.Tells facts times) (user : UserId) (principal : Principal)
    (permissions : PermissionSet) (resourceType resourceId : String) (now : Timestamp) :
    (loader.resourcePermissions (.granted user principal.teamIds permissions) resourceType resourceId now).Settles
      (match facts.refusal principal.teamIds with
        | some error => .error (.store error)
        | none => (loader.registry.expandImplied
            (facts.liveOn user resourceType resourceId now principal)).mapError LoadError.registry)
      times.resourceGrants := by
  have read := (tells.resourceGrants
    { resourceType, resourceId, userId := user, teamIds := principal.teamIds, now }).adapt LoadError.store
  rw [StoreFacts.resourceGrants] at read
  unfold resourcePermissions
  rw [if_neg (by simp [UserGrants.granted])]
  cases refused : facts.refusal principal.teamIds with
  | some error =>
    rw [refused] at read
    exact read.bind_error _
  | none =>
    rw [refused] at read
    exact (read.bind (expand_settles loader _)).mono (by simp)

/-- On a resource a user has what the roles and the grants there give together, if the grants can be asked for. -/
theorem loadForResource_outcome (tells : loader.source.Tells facts times) (user : UserId)
    (resourceType resourceId : String) (now : Timestamp) :
    ∃ outcome, (loader.loadForResource user resourceType resourceId now).Settles outcome times.total ∧
      (facts.Answers loader.enforceVerification user ∧
          facts.Loads loader.registry loader.enforceVerification user
            (facts.permissionsOn user resourceType resourceId now) outcome ∨
        ¬ facts.Answers loader.enforceVerification user ∧ ∃ error, outcome = .error error) := by
  obtain ⟨outcome, loaded, shape⟩ := load_outcome tells user
  cases shape with
  | missing absent =>
    have answers : facts.Answers loader.enforceVerification user := fun _ present => by simp [absent] at present
    exact ⟨_, (loaded.bind_error _).mono (by simp [ReadTimes.total]), .inl ⟨answers, .missing absent⟩⟩
  | root present isRoot =>
    have settled : (loader.loadForResource user resourceType resourceId now).Settles
        (.ok ((UserGrants.root user).merge ∅)) _ := loaded.bind ((settles_pure _).map _)
    rw [merge_empty] at settled
    exact ⟨_, settled.mono (by simp [ReadTimes.total]),
      .inl ⟨StoreFacts.answers_of_withheld present (.inl isRoot), .root present isRoot⟩⟩
  | @pending principal present notRoot pending =>
    have settled : (loader.loadForResource user resourceType resourceId now).Settles
        (.ok ((UserGrants.pending user principal.teamIds).merge ∅)) _ := loaded.bind ((settles_pure _).map _)
    rw [merge_empty] at settled
    exact ⟨_, settled.mono (by simp [ReadTimes.total]),
      .inl ⟨StoreFacts.answers_of_withheld present (.inr pending), .pending present notRoot pending⟩⟩
  | @granted principal permissions present notRoot verified closure registered =>
    have asked := resourcePermissions_settles tells user principal permissions resourceType resourceId now
    have settled : (loader.loadForResource user resourceType resourceId now).Settles _ _ :=
      loaded.bind (asked.map (UserGrants.granted user principal.teamIds permissions).merge)
    refine ⟨_, settled.mono (by simp [ReadTimes.total]; omega), ?_⟩
    rw [StoreFacts.answers_iff present notRoot verified]
    rw [Set.union_empty] at closure
    cases refused : facts.refusal principal.teamIds with
    | none => exact .inl ⟨rfl, StoreFacts.loads_merge present notRoot verified closure registered⟩
    | some error => exact .inr ⟨by simp, _, rfl⟩
  | unknown present notRoot verified implied missing =>
    refine ⟨_, (loaded.bind_error _).mono (by simp [ReadTimes.total]), ?_⟩
    by_cases answers : facts.Answers loader.enforceVerification user
    · exact .inl ⟨answers, .unknown present notRoot verified (Registry.impliedBy_mono (by simp) implied) missing⟩
    · exact .inr ⟨answers, _, rfl⟩

end Loader

end AccessControl
