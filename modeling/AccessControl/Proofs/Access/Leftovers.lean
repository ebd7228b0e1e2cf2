import AccessControl.Proofs.Access.Expiry
import AccessControl.Proofs.Store.Integrity

/-!
Grants that outlive those to whom they were made. A user or a team that is deleted takes roles, memberships and
verifications along, but not the grants on resources. Whoever gets the id next has just those of them that are live, a
user for the user alone and a team for everyone who joins it, and nothing else of what the id stood for.
-/

namespace AccessControl

open Std

namespace StoreFacts

variable {facts others : StoreFacts} {directory : Directory} {user : UserId} {principal : Principal} {holder : Holder}
  {resourceType resourceId : String} {now : Timestamp} {id : PermissionId}

/-- What grants on a resource give to one holder, as far as they have not expired. -/
def grantedTo (facts : StoreFacts) (holder : Holder) (resourceType resourceId : String) (now : Timestamp) :
    Set PermissionId :=
  {id | ∃ grant ∈ facts.grants, grant.resourceType = resourceType ∧ grant.resourceId = resourceId ∧
    grant.holder = holder ∧ (∀ time, grant.expiresAt = some time → now < time) ∧ grant.permission = id}

theorem grantedTo_congr (same : facts.grants = others.grants) :
    facts.grantedTo holder resourceType resourceId now = others.grantedTo holder resourceType resourceId now := by
  rw [grantedTo, same, grantedTo]

/-- A user has what was granted to the user and to each of the user's teams. -/
theorem mem_permissionsOn_iff : id ∈ facts.permissionsOn user resourceType resourceId now principal ↔
    id ∈ facts.grantedTo ⟨.user, user⟩ resourceType resourceId now ∨
      ∃ team ∈ principal.teamIds, id ∈ facts.grantedTo ⟨.team, team⟩ resourceType resourceId now := by
  constructor
  · rintro ⟨grant, held, sameType, sameId, own | ⟨team, member, shared⟩, active, same⟩
    · exact .inl ⟨grant, held, sameType, sameId, own, active, same⟩
    · exact .inr ⟨team.id, List.mem_map_of_mem member, grant, held, sameType, sameId, shared, active, same⟩
  · rintro (⟨grant, held, sameType, sameId, own, active, same⟩ |
      ⟨_, member, grant, held, sameType, sameId, shared, active, same⟩)
    · exact ⟨grant, held, sameType, sameId, .inl own, active, same⟩
    · obtain ⟨team, listed, rfl⟩ := List.mem_map.mp member
      exact ⟨grant, held, sameType, sameId, .inr ⟨team, listed, shared⟩, active, same⟩

/-- A user joins a team that has no roles: there is one team more for the user, and nothing else is different. -/
structure Enters (facts others : StoreFacts) (team : TeamId) (principal member : Principal) : Prop where
  here : facts.principal principal.userId = some principal
  there : others.principal member.userId = some member
  userId : member.userId = principal.userId
  isRoot : member.isRoot = principal.isRoot
  pending : ∀ enforced, others.Pending enforced member ↔ facts.Pending enforced principal
  permissions : ∀ id, id ∈ member.permissions ↔ id ∈ principal.permissions
  teamIds : ∀ id, id ∈ member.teamIds ↔ id = team ∨ id ∈ principal.teamIds

theorem Follows.enters {account : Account} {team : TeamId} {teams : UserId → ExtTreeSet TeamId}
    (follows : facts.Follows directory) (followsAfter : others.Follows { directory with teams })
    (known : directory.account user = some account) (joined : teams user = (directory.teams user).insert team)
    (bare : directory.teamRoles team = ∅) :
    ∃ principal member, principal.userId = user ∧ facts.Enters others team principal member := by
  obtain ⟨principal, here⟩ := follows.present known
  obtain ⟨member, there⟩ := followsAfter.present known
  have sameUser : principal.userId = user := follows.userId here
  have memberUser : member.userId = user := followsAfter.userId there
  have sameAccount : (⟨principal.isRoot, principal.provider⟩ : Account) = ⟨member.isRoot, member.provider⟩ :=
    Option.some.inj ((follows.account here).symm.trans (followsAfter.account there))
  have sameRoot : principal.isRoot = member.isRoot := congrArg Account.isRoot sameAccount
  have sameProvider : principal.provider = member.provider := congrArg Account.provider sameAccount
  -- The team has no roles, so the roles that the member carries are those carried before.
  have carries : ∀ role, Directory.Carries { directory with teams } user role ↔ directory.Carries user role := by
    intro role
    simp [Directory.Carries, joined, or_and_right, exists_or, bare]
  refine ⟨principal, member, sameUser, by rwa [sameUser], by rwa [memberUser], memberUser.trans sameUser.symm,
    sameRoot.symm, fun enforced => ?_, fun id => ?_, fun id => ?_⟩
  · rw [Pending, Pending, followsAfter.verification, follows.verification, followsAfter.verificationRequired,
      follows.verificationRequired, sameProvider, memberUser, sameUser]
  · simp only [followsAfter.mem_permissions there, follows.mem_permissions here, carries]
  · simp only [followsAfter.teamIds there, follows.teamIds here, ExtTreeSet.mem_toList, joined, ExtTreeSet.mem_insert,
      Std.compare_eq_iff_eq, @eq_comm _ team]

/-- What a member of a team that has been joined holds on a resource, by what was held before. -/
theorem Enters.held {team : TeamId} {member : Principal} (enters : facts.Enters others team principal member)
    (same : others.grants = facts.grants) :
    member.permissions ∪ others.permissionsOn member.userId resourceType resourceId now member =
      principal.permissions ∪ facts.permissionsOn principal.userId resourceType resourceId now principal ∪
        facts.grantedTo ⟨.team, team⟩ resourceType resourceId now := by
  ext id
  simp only [Set.mem_union, mem_permissionsOn_iff, enters.permissions, enters.userId, enters.teamIds,
    grantedTo_congr same, or_and_right, exists_or, exists_eq_left, or_assoc]
  exact or_congr_right (or_congr_right or_comm)

end StoreFacts

/-- Loading grants the closure of what is held, or fails for what of it is not registered. -/
inductive Registry.Yields (registry : Registry) (held : Set PermissionId) : Except LoadError UserGrants → Prop where
  | granted {grants : UserGrants} (notRoot : grants.isRoot = false)
    (closure : ∀ id, id ∈ grants.permissions ↔ id ∈ registry.impliedBy held)
    (registered : ∀ id ∈ grants.permissions, id ∈ registry) : Yields registry held (.ok grants)
  | unknown {culprit : PermissionId} (implied : culprit ∈ registry.impliedBy held) (missing : culprit ∉ registry) :
    Yields registry held (.error (.registry (.unknownPermission culprit)))

theorem Registry.impliedBy_eq_empty_iff {registry : Registry} {held : Set PermissionId} :
    registry.impliedBy held = ∅ ↔ held = ∅ := by
  constructor
  · exact fun nothing => Set.subset_empty_iff.mp (nothing ▸ subset_impliedBy)
  · rintro rfl
    exact Set.eq_empty_iff_forall_notMem.mpr fun id ⟨_, given, _⟩ => given

theorem Registry.not_entitles_empty {registry : Registry} {permission : PermissionId} :
    ¬ registry.Entitles ∅ permission := by
  intro entitles
  have covered := entitles.covered (.inl rfl)
  rw [impliedBy_eq_empty_iff.mpr rfl] at covered
  exact covered

theorem Registry.Yields.empty_iff {registry : Registry} {held : Set PermissionId}
    {outcome : Except LoadError UserGrants} (yields : registry.Yields held outcome) :
    (∃ grants, outcome = .ok grants ∧ grants.permissions = ∅) ↔ held = ∅ := by
  refine .trans ?_ (impliedBy_eq_empty_iff : registry.impliedBy held = ∅ ↔ held = ∅)
  cases yields with
  | @granted grants _ closure _ =>
    have same : grants.permissions = ∅ ↔ registry.impliedBy held = ∅ := by
      rw [Std.ExtTreeSet.eq_empty_iff_forall_not_mem, Set.eq_empty_iff_forall_notMem]
      exact forall_congr' fun id => not_congr (closure id)
    rw [← same]
    constructor
    · rintro ⟨_, loaded, nothing⟩
      cases loaded
      exact nothing
    · exact fun nothing => ⟨grants, rfl, nothing⟩
  | unknown implied _ =>
    constructor
    · rintro ⟨_, failed, _⟩
      cases failed
    · intro nothing
      rw [nothing] at implied
      exact absurd implied (Set.notMem_empty _)

/-- What may be used is granted. -/
theorem Registry.Yields.granted_of_entitles {registry : Registry} {held : Set PermissionId}
    {outcome : Except LoadError UserGrants} {permission : PermissionId} (yields : registry.Yields held outcome)
    (entitles : registry.Entitles held permission) :
    ∃ grants, outcome = .ok grants ∧ permission ∈ grants.permissions := by
  cases yields with
  | @granted grants _ closure _ => exact ⟨grants, rfl, (closure permission).mpr (entitles.covered (.inl rfl))⟩
  | unknown implied missing => exact absurd (entitles.known _ implied) missing

namespace Database

open Store

variable {tables : Database} {registry : Registry} {config : CheckerConfig} {user : UserId} {principal : Principal}
  {resourceType resourceId : String} {now : Timestamp} {held : Set PermissionId} {team : TeamId}

/-- What loading for a user on a resource comes to. -/
def loadedFor (tables : Database) (registry : Registry) (config : CheckerConfig) (user : UserId)
    (resourceType resourceId : String) (now : Timestamp) : Except LoadError UserGrants :=
  ((Checker.on registry config tables).loader.loadForResource user resourceType resourceId now).result

/-- A check on a resource allows. -/
def AllowsOn (tables : Database) (registry : Registry) (config : CheckerConfig) (user : UserId)
    (resourceType resourceId : String) (now : Timestamp) (permission : PermissionId) : Prop :=
  ∃ decision, (Checker.on registry config tables).explainResource user resourceType resourceId permission now =
    .ok decision ∧ decision.allowed = true

/-- What a user has by roles and by grants on a resource, before implications. -/
def heldBy (tables : Database) (principal : Principal) (resourceType resourceId : String) (now : Timestamp) :
    Set PermissionId :=
  principal.permissions ∪ tables.facts.permissionsOn principal.userId resourceType resourceId now principal

/-- The user is this one, and has nothing to go by on the resource but what is held, unless the user is root. Nobody
who is in more teams than can be asked about at once is told of any of it. -/
structure HoldsOn (tables : Database) (registry : Registry) (config : CheckerConfig) (principal : Principal)
    (resourceType resourceId : String) (now : Timestamp) (held : Set PermissionId) : Prop where
  present : tables.loadPrincipal principal.userId = some principal
  loaded : principal.isRoot = false → ¬ tables.facts.Pending config.enforceVerification principal →
    principal.teamIds.length ≤ 32762 →
    registry.Yields held (tables.loadedFor registry config principal.userId resourceType resourceId now)
  withheld : principal.isRoot = true ∨ tables.facts.Pending config.enforceVerification principal →
    ∃ grants, tables.loadedFor registry config principal.userId resourceType resourceId now = .ok grants ∧
      grants.permissions = ∅
  allowed_iff : ∀ permission, tables.AllowsOn registry config principal.userId resourceType resourceId now permission ↔
    Checker.Given (Checker.resourceArguments principal.userId resourceType resourceId permission) ∧
      (principal.isRoot = true ∨ ¬ tables.facts.Pending config.enforceVerification principal ∧
        principal.teamIds.length ≤ 32762 ∧ registry.Entitles held permission)

theorem holdsOn (present : tables.loadPrincipal principal.userId = some principal)
    (same : tables.heldBy principal resourceType resourceId now = held) :
    tables.HoldsOn registry config principal resourceType resourceId now held := by
  have known : tables.facts.principal principal.userId = some principal := present
  unfold heldBy at same
  have shape (answers : tables.facts.Answers config.enforceVerification principal.userId) :
      tables.facts.Loads registry config.enforceVerification principal.userId
        (tables.facts.permissionsOn principal.userId resourceType resourceId now)
        (tables.loadedFor registry config principal.userId resourceType resourceId now) :=
    tables.gives.result_loads answers
  have answers_iff (notRoot : principal.isRoot = false)
      (verified : ¬ tables.facts.Pending config.enforceVerification principal) :
      tables.facts.Answers config.enforceVerification principal.userId ↔ principal.teamIds.length ≤ 32762 :=
    (StoreFacts.answers_iff known notRoot verified).trans refusal_eq_none_iff
  refine ⟨present, fun notRoot verified few => ?_, fun withheld => ?_, fun permission => ?_⟩
  · rcases (shape ((answers_iff notRoot verified).mpr few)).eq_granted known notRoot verified with
      ⟨permissions, granted, closure, registered⟩ | ⟨culprit, implied, missing, failed⟩
    · rw [granted]
      rw [same] at closure registered
      exact .granted rfl closure fun id member => registered id ((closure id).mp member)
    · rw [failed]
      exact .unknown (same ▸ implied) missing
  · have shape := shape (StoreFacts.answers_of_withheld known withheld)
    by_cases isRoot : principal.isRoot = true
    · exact ⟨_, shape.eq_root known isRoot, rfl⟩
    · exact ⟨_, shape.eq_pending known (by simpa using isRoot) (withheld.resolve_left isRoot), rfl⟩
  · by_cases given : Checker.Given (Checker.resourceArguments principal.userId resourceType resourceId permission)
    · rw [AllowsOn, allows_iff registry config tables.gives given now, and_iff_right given]
      constructor
      · rintro ⟨answers, other, found, allows⟩
        obtain rfl := Option.some.inj (known.symm.trans found)
        cases isRoot : principal.isRoot with
        | true => exact .inl rfl
        | false =>
          obtain ⟨verified, entitles⟩ := allows.resolve_left (by simp [isRoot])
          exact .inr ⟨verified, (answers_iff isRoot verified).mp answers, same ▸ entitles⟩
      · intro allows
        cases isRoot : principal.isRoot with
        | true => exact ⟨StoreFacts.answers_of_withheld known (.inl isRoot), principal, known, .inl isRoot⟩
        | false =>
          obtain ⟨verified, few, entitles⟩ := allows.resolve_left (by simp [isRoot])
          exact ⟨(answers_iff isRoot verified).mpr few, principal, known, .inr ⟨verified, same ▸ entitles⟩⟩
    · refine ⟨fun ⟨decision, explained, _⟩ => ?_, fun allows => absurd allows.1 given⟩
      obtain ⟨field, refused⟩ := Checker.explainResource_of_blank _ given
      cases refused.symm.trans explained

/-- One who has just been added. -/
def newcomer (user : UserId) (provider : AuthProvider) : Principal :=
  ⟨user, false, .ofName provider.name, [], []⟩

theorem Referential.not_pending_newcomer (referential : tables.Referential) (user : UserId) (provider : AuthProvider)
    (enforced : Bool) : ¬ (tables.renewUser user provider).facts.Pending enforced (newcomer user provider) := by
  rintro ⟨_, _, _, record, recorded, _⟩
  have none : (tables.renewUser user provider).facts.verification user = none :=
    (referential.forgetsUser user provider).verification
  rw [newcomer, none] at recorded
  cases recorded

/-- A user who is added again holds what was granted to the id before. -/
theorem Referential.holdsOn_newcomer (referential : tables.Referential) (user : UserId) (provider : AuthProvider) :
    (tables.renewUser user provider).HoldsOn registry config (newcomer user provider) resourceType resourceId now
      (tables.facts.grantedTo ⟨.user, user⟩ resourceType resourceId now) := by
  refine holdsOn (referential.forgetsUser user provider).renewed ?_
  have kept : (tables.renewUser user provider).facts.grants = tables.facts.grants := rfl
  ext id
  rw [heldBy, Set.mem_union, StoreFacts.mem_permissionsOn_iff, StoreFacts.grantedTo_congr kept]
  simp [newcomer, Principal.permissions, Principal.teamIds]

/-- The members who join a team that has been created again. -/
def renewTeamWith (tables : Database) (team : TeamId) (name : String) (members : List UserId) : Database :=
  Store.after (tables.renewTeam team name) (members.map (.addTeamMember team))

theorem Reachable.renewTeam (reachable : tables.Reachable) (team : TeamId) (name : String) :
    (tables.renewTeam team name).Reachable :=
  (reachable.deleteTeam team).write (.addTeam team name)

theorem grants_renewTeam (tables : Database) (team : TeamId) (name : String) :
    (tables.renewTeam team name).facts.grants = tables.facts.grants :=
  rfl

theorem grants_renewTeamWith (tables : Database) (team : TeamId) (name : String) (members : List UserId) :
    (tables.renewTeamWith team name members).facts.grants = tables.facts.grants := by
  have rows : (tables.renewTeamWith team name members).resourcePermissions = tables.resourcePermissions := by
    refine Store.after_keeps (motive := fun after : Database => after.resourcePermissions = tables.resourcePermissions)
      (fun change written before same => ?_) rfl
    obtain ⟨_, _, rfl⟩ := List.mem_map.mp written
    rw [(before.step_leaves _).resourcePermissions]
    exact same
  change (tables.renewTeamWith team name members).grants = tables.grants
  rw [grants, grants, rows]

theorem Reachable.enters (reachable : tables.Reachable) {name : String} {members : List UserId}
    (takes : Store.Takes (tables.renewTeam team name) (members.map (.addTeamMember team))) (joins : user ∈ members) :
    ∃ principal member, principal.userId = user ∧
      (tables.renewTeam team name).facts.Enters (tables.renewTeamWith team name members).facts team principal
        member := by
  have before := reachable.renewTeam team name
  have after : (tables.renewTeamWith team name members).Reachable := before.after _
  let teams : UserId → ExtTreeSet TeamId := fun user =>
    if user ∈ members then ((tables.renewTeam team name).directory.teams user).insert team
    else (tables.renewTeam team name).directory.teams user
  have directory : (tables.renewTeamWith team name members).directory =
      { (tables.renewTeam team name).directory with teams } :=
    (DirectoryStore.directory_after takes).trans (Directory.foldl_addTeamMember _ _ _ _)
  have joined : teams user = ((tables.renewTeam team name).directory.teams user).insert team := if_pos joins
  -- A member of a team is a user, and who is a user does not change when a team is joined.
  have known : ∃ account, (tables.renewTeam team name).directory.account user = some account := by
    have member : team ∈ (tables.renewTeamWith team name members).directory.teams user := by
      rw [directory]
      simp [joined]
    have stored := (after.referential.teamMember_known member).2
    have same : (tables.renewTeam team name).directory.account =
        (tables.renewTeamWith team name members).directory.account := by rw [directory]
    rw [same]
    exact ⟨_, congrArg (Option.map UserRow.account) (ExtTreeMap.getElem?_eq_some_getElem stored)⟩
  obtain ⟨account, known⟩ := known
  have bare : (tables.renewTeam team name).directory.teamRoles team = ∅ := by
    refine ExtTreeSet.eq_empty_iff_forall_not_mem.mpr fun role shared => ?_
    obtain ⟨row, stored, own, _⟩ := mem_owned.mp shared
    exact (reachable.referential.forgetsTeam team name).roles row stored own
  have followsAfter := after.referential.follows
  rw [directory] at followsAfter
  exact before.referential.follows.enters followsAfter known joined bare

/-- On a resource, one who gets the id of a deleted user has just what was granted there to the id, and members of a
team that gets the id of a deleted one have that besides what they had without the team. Where nothing was granted, or
all of it has expired, the id gives nothing. -/
theorem leftover_grants_return (reachable : tables.Reachable) (registry : Registry) (config : CheckerConfig)
    (resourceType resourceId : String) (now : Timestamp) :
    (∀ user provider,
      let renewed := tables.renewUser user provider
      let leftover := tables.facts.grantedTo ⟨.user, user⟩ resourceType resourceId now
      ¬ renewed.facts.Pending config.enforceVerification (newcomer user provider) ∧
        renewed.HoldsOn registry config (newcomer user provider) resourceType resourceId now leftover ∧
        ((∃ grants, renewed.loadedFor registry config user resourceType resourceId now = .ok grants ∧
          grants.permissions = ∅) ↔ leftover = ∅) ∧
        (leftover = ∅ → ∀ permission, ¬ renewed.AllowsOn registry config user resourceType resourceId now permission)) ∧
    ∀ team name members,
      let renewed := tables.renewTeam team name
      let joined := tables.renewTeamWith team name members
      let leftover := tables.facts.grantedTo ⟨.team, team⟩ resourceType resourceId now
      Store.Takes renewed (members.map (.addTeamMember team)) → ∀ user ∈ members, ∃ principal member,
        principal.userId = user ∧ renewed.facts.Enters joined.facts team principal member ∧
          renewed.HoldsOn registry config principal resourceType resourceId now
            (renewed.heldBy principal resourceType resourceId now) ∧
          joined.HoldsOn registry config member resourceType resourceId now
            (renewed.heldBy principal resourceType resourceId now ∪ leftover) := by
  constructor
  · intro user provider renewed leftover
    have holds : renewed.HoldsOn registry config (newcomer user provider) resourceType resourceId now leftover :=
      reachable.referential.holdsOn_newcomer user provider
    have verified := reachable.referential.not_pending_newcomer user provider config.enforceVerification
    have few : (newcomer user provider).teamIds.length ≤ 32762 := Nat.zero_le _
    refine ⟨verified, holds, (holds.loaded rfl verified few).empty_iff, fun nothing permission allows => ?_⟩
    obtain ⟨_, isRoot | ⟨_, _, entitles⟩⟩ := (holds.allowed_iff permission).mp allows
    · cases isRoot
    · exact Registry.not_entitles_empty (nothing ▸ entitles)
  · intro team name members renewed joined leftover takes user joins
    obtain ⟨principal, member, same, enters⟩ := reachable.enters takes joins
    refine ⟨principal, member, same, enters, holdsOn enters.here rfl, holdsOn enters.there ?_⟩
    have kept : joined.facts.grants = renewed.facts.grants :=
      (grants_renewTeamWith tables team name members).trans (grants_renewTeam tables team name).symm
    rw [heldBy, enters.held kept, StoreFacts.grantedTo_congr (grants_renewTeam tables team name), heldBy]

/-- A document that a user and a team may edit. -/
def cabinet : Database :=
  Store.after .empty
    [.addUser "ann" .oidc, .addUser "bob" .oidc, .addTeam "writers" "Writers",
      .grant ⟨⟨"doc", "7", ⟨.user, "ann"⟩, "edit"⟩, none⟩, .grant ⟨⟨"doc", "7", ⟨.team, "writers"⟩, "edit"⟩, some 9⟩]

theorem cabinet_grantedTo (holder : Holder) (now : Timestamp) (id : PermissionId) :
    id ∈ cabinet.facts.grantedTo holder "doc" "7" now ↔
      (holder = ⟨.user, "ann"⟩ ∨ holder = ⟨.team, "writers"⟩ ∧ now < 9) ∧ id = "edit" := by
  have grants : cabinet.facts.grants = [⟨⟨"doc", "7", ⟨.team, "writers"⟩, "edit"⟩, some 9⟩,
      ⟨⟨"doc", "7", ⟨.user, "ann"⟩, "edit"⟩, none⟩] := by
    decide +kernel
  simp only [StoreFacts.grantedTo, grants, Set.mem_ofPred_eq, List.exists_mem_cons_iff, List.not_mem_nil, false_and,
    exists_false, or_false, true_and, Option.some.injEq, forall_eq', reduceCtorEq, IsEmpty.forall_iff, implies_true]
  grind

/-- A document that may be edited by a user who was deleted and added again. -/
theorem deleted_access_returns :
    cabinet.Reachable ∧
      (∃ grants, (cabinet.renewUser "ann" .oidc).loadedFor .editing {} "ann" "doc" "7" 8 = .ok grants ∧
        "edit" ∈ grants.permissions) ∧
      (cabinet.renewUser "ann" .oidc).AllowsOn .editing {} "ann" "doc" "7" 8 "edit" := by
  have reachable : cabinet.Reachable := Reachable.empty.after _
  have holds : (cabinet.renewUser "ann" .oidc).HoldsOn .editing {} (newcomer "ann" .oidc) "doc" "7" 8 _ :=
    reachable.referential.holdsOn_newcomer "ann" .oidc
  have verified := reachable.referential.not_pending_newcomer "ann" .oidc (CheckerConfig.enforceVerification {})
  have entitles : Registry.editing.Entitles (cabinet.facts.grantedTo ⟨.user, "ann"⟩ "doc" "7" 8) "edit" :=
    Registry.editing_entitles fun id => by simp [cabinet_grantedTo]
  exact ⟨reachable, (holds.loaded rfl verified (Nat.zero_le _)).granted_of_entitles entitles,
    (holds.allowed_iff "edit").mpr ⟨by unfold Checker.Given; decide, .inr ⟨verified, Nat.zero_le _, entitles⟩⟩⟩

/-- The id of the user may still edit, and so may who joins the team of that id, until the grant to it expires; who was
granted nothing may not. -/
theorem cabinet_reopened :
    cabinet.Reachable ∧ Store.Takes (cabinet.renewTeam "writers" "Authors") [.addTeamMember "writers" "bob"] ∧
      (cabinet.renewUser "ann" .oidc).AllowsOn .editing {} "ann" "doc" "7" 8 "edit" ∧
      (cabinet.renewTeamWith "writers" "Authors" ["bob"]).AllowsOn .editing {} "bob" "doc" "7" 8 "edit" ∧
      ¬ (cabinet.renewUser "bob" .oidc).AllowsOn .editing {} "bob" "doc" "7" 8 "edit" := by
  have reachable : cabinet.Reachable := Reachable.empty.after _
  have takes : Store.Takes (cabinet.renewTeam "writers" "Authors") [.addTeamMember "writers" "bob"] := by decide +kernel
  obtain ⟨users, teams⟩ := leftover_grants_return reachable .editing {} "doc" "7" 8
  refine ⟨reachable, takes, ?_, ?_, ?_⟩
  · obtain ⟨verified, holds, _⟩ := users "ann" .oidc
    refine (holds.allowed_iff "edit").mpr ⟨by unfold Checker.Given; decide, .inr ⟨verified, Nat.zero_le _, ?_⟩⟩
    exact Registry.editing_entitles fun id => by simp [cabinet_grantedTo]
  · obtain ⟨principal, member, same, enters, _, shares⟩ := teams "writers" "Authors" ["bob"] takes "bob" (by simp)
    have bob : (cabinet.renewTeam "writers" "Authors").loadPrincipal "bob" = some ⟨"bob", false, .oidc, [], []⟩ := by
      decide +kernel
    have known := enters.here
    rw [same] at known
    obtain rfl := Option.some.inj (known.symm.trans bob)
    have joined : (cabinet.renewTeamWith "writers" "Authors" ["bob"]).loadPrincipal "bob" =
        some ⟨"bob", false, .oidc, [], [⟨"writers", "Authors", []⟩]⟩ := by
      decide +kernel
    have few : member.teamIds.length ≤ 32762 := by
      have there := enters.there
      rw [enters.userId] at there
      obtain rfl := Option.some.inj (there.symm.trans joined)
      decide
    have notPending : ¬ (cabinet.renewTeamWith "writers" "Authors" ["bob"]).facts.Pending true member :=
      fun pending => absurd ((enters.pending true).mp pending).2.1 (by decide)
    have allowed := shares.allowed_iff "edit"
    rw [enters.userId] at allowed
    refine allowed.mpr
      ⟨by unfold Checker.Given; decide, .inr ⟨notPending, few, Registry.editing_entitles fun id => ?_⟩⟩
    rw [heldBy, Set.mem_union, Set.mem_union, StoreFacts.mem_permissionsOn_iff,
      StoreFacts.grantedTo_congr (grants_renewTeam cabinet "writers" "Authors")]
    simp [cabinet_grantedTo, Principal.permissions, Principal.teamIds]
  · refine (users "bob" .oidc).2.2.2 (Set.eq_empty_iff_forall_notMem.mpr fun id granted => ?_) "edit"
    simp [cabinet_grantedTo] at granted

end Database

end AccessControl
