import AccessControl.Proofs.Directory.Basic
import AccessControl.Proofs.Store.Rows
import AccessControl.Proofs.Store.Runs

namespace AccessControl

open Std Function

def StoredUser.account (stored : StoredUser) : Account :=
  ⟨stored.isRoot, stored.provider⟩

namespace MemoryStore

variable {store : MemoryStore} {user : UserId} {role : RoleId} {team : TeamId}

def teamIdsOf (store : MemoryStore) (user : UserId) : List TeamId :=
  (store.teams.toList.filter fun (_, team) => user ∈ team.members).map Prod.fst

def directory (store : MemoryStore) : Directory where
  account user := store.users[user]?.map StoredUser.account
  roles user := (store.users[user]?.map StoredUser.roles).getD ∅
  teams user := .ofList (store.teamIdsOf user)
  teamRoles team := (store.teams[team]?.map StoredTeam.roles).getD ∅
  permissions role := (store.roles[role]?.map StoredRole.permissions).getD ∅
  verification user := store.verifications[user]?
  verificationRequired := store.verificationRequired

theorem mem_directory_teams :
    team ∈ store.directory.teams user ↔ ∃ stored, store.teams[team]? = some stored ∧ user ∈ stored.members := by
  simp only [directory, teamIdsOf, ExtTreeSet.mem_ofList, List.contains_iff_mem, List.mem_map, List.mem_filter,
    ExtTreeMap.mem_toList_iff_getElem?_eq_some, decide_eq_true_eq, Prod.exists, exists_and_right, exists_eq_right]

theorem directory_empty : (Store.empty : MemoryStore).directory = .empty := by
  have noTeams : (fun user => ExtTreeSet.ofList ((Store.empty : MemoryStore).teamIdsOf user)) = fun _ => ∅ :=
    funext fun user => ExtTreeSet.ext_mem fun team => by simp [teamIdsOf, Store.empty, empty]
  rw [directory, noTeams]
  simp [Store.empty, empty, Directory.empty]

theorem toList_directory_teams (store : MemoryStore) (user : UserId) :
    (store.directory.teams user).toList = store.teamIdsOf user := by
  refine eq_of_ascending ExtTreeSet.ordered_toList (ascending_keys _ _) fun team => ?_
  simp [directory]

theorem flatMap_rolesOf (store : MemoryStore) (ids : ExtTreeSet RoleId) :
    (store.rolesOf ids).flatMap Role.permissions = store.directory.given ids := by
  refine Directory.flatMap_filterMap (fun role => ?_) ids
  cases found : store.roles[role]? with
  | none => simp [directory, found]
  | some stored => simp [directory, found]

/-- The principal that the store loads has the standing that the user has in the directory. -/
theorem standing_loadPrincipal (store : MemoryStore) (user : UserId) :
    (store.loadPrincipal user).map Principal.standing = store.directory.standing user := by
  unfold loadPrincipal
  cases found : store.users[user]? with
  | none => simp [Directory.standing, directory, found]
  | some stored =>
    refine (Directory.standing_eq ?_ ?_ ?_ ?_ ?_).symm
    · simp [directory, found, StoredUser.account]
    · rfl
    · rw [toList_directory_teams, Principal.teamIds, teamsOf, List.map_map]
      rfl
    · simp only [flatMap_rolesOf, directory, found, Option.map_some, Option.getD_some]
    · intro team member
      obtain ⟨⟨id, storedTeam⟩, listed, rfl⟩ := List.mem_map.mp member
      have present : store.teams[id]? = some storedTeam :=
        ExtTreeMap.mem_toList_iff_getElem?_eq_some.mp (List.mem_filter.mp listed).1
      simp only [flatMap_rolesOf, directory, present, Option.map_some, Option.getD_some]

theorem directory_putUser (stored : StoredUser) :
    directory { store with users := store.users.insert user stored } =
      { store.directory with
        account := update store.directory.account user (some stored.account)
        roles := update store.directory.roles user stored.roles } := by
  unfold directory
  congr 1
  · exact tell_insert fun stored => stored.map StoredUser.account
  · exact tell_insert fun stored => (stored.map StoredUser.roles).getD ∅

theorem directory_putRole (stored : StoredRole) :
    directory { store with roles := store.roles.insert role stored } =
      { store.directory with permissions := update store.directory.permissions role stored.permissions } := by
  unfold directory
  congr 1
  exact tell_insert fun stored => (stored.map StoredRole.permissions).getD ∅

/-- A team is written over; whose team it is follows from its members. -/
theorem directory_putTeam (stored : StoredTeam) {teams : UserId → ExtTreeSet TeamId}
    (listed : ∀ user other, other ∈ teams user ↔
      if other = team then user ∈ stored.members else other ∈ store.directory.teams user) :
    directory { store with teams := store.teams.insert team stored } =
      { store.directory with teams, teamRoles := update store.directory.teamRoles team stored.roles } := by
  have sameTeams : (directory { store with teams := store.teams.insert team stored }).teams = teams := by
    funext user
    refine ExtTreeSet.ext_mem fun other => ?_
    rw [listed, mem_directory_teams, mem_directory_teams, ExtTreeMap.getElem?_insert]
    by_cases same : other = team
    · simp [same]
    · simp [same, Ne.symm same]
  rw [← sameTeams]
  unfold directory
  congr 1
  exact tell_insert fun stored => (stored.map StoredTeam.roles).getD ∅

theorem directory_keepMembers {stored : StoredTeam}
    (sameMembers : ∀ user, user ∈ stored.members ↔
      ∃ before, store.teams[team]? = some before ∧ user ∈ before.members) :
    directory { store with teams := store.teams.insert team stored } =
      { store.directory with teamRoles := update store.directory.teamRoles team stored.roles } := by
  refine directory_putTeam stored fun user other => ?_
  by_cases same : other = team
  · rw [if_pos same, same, sameMembers, mem_directory_teams]
  · rw [if_neg same]

theorem directory_addMember {stored : StoredTeam} (found : store.teams[team]? = some stored) :
    directory { store with teams := store.teams.insert team { stored with members := stored.members.insert user } } =
      { store.directory with
        teams := update store.directory.teams user ((store.directory.teams user).insert team) } := by
  have listed : ∀ other listed,
      listed ∈ update store.directory.teams user ((store.directory.teams user).insert team) other ↔
      if listed = team then other ∈ stored.members.insert user else listed ∈ store.directory.teams other := by
    intro other listed
    by_cases here : listed = team
    · subst here
      by_cases same : other = user
      · simp [same]
      · simp [same, Ne.symm same, mem_directory_teams, found]
    · by_cases same : other = user
      · simp [same, here, Ne.symm here]
      · simp [same, here]
  rw [directory_putTeam _ listed]
  simp [directory, found]

/-- A write is refused and changes nothing, or does to the directory what it says. -/
theorem directory_outcome (store : MemoryStore) (change : Write) :
    Store.receipt store change = none ∧ Store.step store change = store ∨
      (Store.step store change).directory = store.directory.apply id change := by
  change ((write change).perform store).1.toOption = none ∧ ((write change).perform store).2 = store ∨
    (((write change).perform store).2).directory = _
  cases change with
  | addUser user provider =>
    rw [perform_addUser, directory_putUser]
    refine .inr ?_
    cases found : store.users[user]? with
    | none => simp [Directory.apply, directory, found, StoredUser.account]
    | some stored => simp [Directory.apply, directory, found, StoredUser.account]
  | setRoot user isRoot =>
    rw [perform_setRoot]
    cases found : store.users[user]? with
    | none => exact .inl ⟨rfl, rfl⟩
    | some stored =>
      refine .inr ((directory_putUser _).trans ?_)
      simp [Directory.apply, directory, found, StoredUser.account]
  | addRole role permissions => exact .inr (directory_putRole _)
  | addRolePermission role permission =>
    rw [perform_addRolePermission]
    cases found : store.roles[role]? with
    | none => exact .inl ⟨rfl, rfl⟩
    | some stored =>
      refine .inr ((directory_putRole _).trans ?_)
      simp [Directory.apply, directory, found]
  | assignRole user role =>
    rw [perform_assignRole]
    cases foundRole : store.roles[role]? with
    | none => exact .inl ⟨rfl, rfl⟩
    | some _ =>
      cases found : store.users[user]? with
      | none => exact .inl ⟨rfl, rfl⟩
      | some stored =>
        refine .inr ((directory_putUser _).trans ?_)
        simp [Directory.apply, directory, found, StoredUser.account]
  | addTeam team name =>
    rw [perform_addTeam]
    refine .inr ((directory_keepMembers fun user => ?_).trans ?_)
    · cases store.teams[team]? <;> simp
    · cases found : store.teams[team]? <;> simp [Directory.apply, directory, found]
  | addTeamMember team user =>
    rw [perform_addTeamMember]
    cases foundUser : store.users[user]? with
    | none => exact .inl ⟨rfl, rfl⟩
    | some _ =>
      cases found : store.teams[team]? with
      | none => exact .inl ⟨rfl, rfl⟩
      | some stored =>
        exact .inr (directory_addMember found)
  | assignTeamRole team role =>
    rw [perform_assignTeamRole]
    cases foundRole : store.roles[role]? with
    | none => exact .inl ⟨rfl, rfl⟩
    | some _ =>
      cases found : store.teams[team]? with
      | none => exact .inl ⟨rfl, rfl⟩
      | some stored =>
        refine .inr ((directory_keepMembers fun user => ?_).trans ?_)
        · simp [found]
        · simp [Directory.apply, directory, found]
  | grant grant => exact .inr rfl
  | revoke key => exact .inr rfl
  | setVerification user verifiedAt =>
    refine .inr ?_
    rw [perform_setVerification]
    unfold directory Directory.apply
    congr 1
    exact tell_insert id
  | requireVerification required => exact .inr rfl
  | upsertPermissions permissions =>
    rw [perform_upsertPermissions]
    exact .inr rfl

end MemoryStore

end AccessControl
