import AccessControl.Proofs.Directory.Tables
import AccessControl.Proofs.Store.Frame

namespace AccessControl

open Std

def Team.withoutRole (gone : RoleId) (team : Team) : Team :=
  { team with roles := team.roles.filter fun role => role.id ≠ gone }

namespace Principal

def withoutRole (gone : RoleId) (principal : Principal) : Principal :=
  { principal with
    roles := principal.roles.filter fun role => role.id ≠ gone
    teams := principal.teams.map (Team.withoutRole gone) }

def withoutTeam (gone : TeamId) (principal : Principal) : Principal :=
  { principal with teams := principal.teams.filter fun team => team.id ≠ gone }

end Principal

/-- Of what is found by ids, the one whose id is struck out is missing, whatever would now be found under that id. -/
theorem filterMap_struck {before after : String → Option α} {idOf : α → String} {gone : String}
    (own : ∀ id value, before id = some value → idOf value = id) (kept : ∀ id, id ≠ gone → after id = before id)
    (ids : ExtTreeSet String) :
    (ids.filter fun id => id ≠ gone).toList.filterMap after =
      (ids.toList.filterMap before).filter fun value => idOf value ≠ gone := by
  rw [ExtTreeSet.toList_filter, List.filterMap_filter, List.filter_filterMap]
  refine List.filterMap_congr fun id _ => ?_
  cases found : before id with
  | none =>
    by_cases same : id = gone
    · simp [same]
    · simp [same, kept id same, found]
  | some value =>
    have ownId : idOf value = id := own id value found
    by_cases same : id = gone
    · simp [same, ownId, Option.filter]
    · simp [same, ownId, kept id same, found, Option.filter]

namespace Database

variable {tables : Database} {user other : UserId} {role : RoleId} {team : TeamId}

def withoutUser (tables : Database) (id : UserId) : Database :=
  ((deleteUser id).perform tables).2

def withoutRole (tables : Database) (id : RoleId) : Database :=
  ((deleteRole id).perform tables).2

def withoutTeam (tables : Database) (id : TeamId) : Database :=
  ((deleteTeam id).perform tables).2

theorem not_mem_erase (map : ExtTreeMap String α) (gone : String) : gone ∉ map.erase gone := by
  simp

theorem getElem?_erase_of_ne {map : ExtTreeMap String α} {id gone : String} (different : id ≠ gone) :
    (map.erase gone)[id]? = map[id]? := by
  simp [ExtTreeMap.getElem?_erase, Ne.symm different]

/-- A role is as before if its name and its permissions are. -/
theorem role?_congr {after : Database} (name : after.roles[role]? = tables.roles[role]?)
    (permissions : after.directory.permissions role = tables.directory.permissions role) :
    after.role? role = tables.role? role := by
  simp only [role?, ← toList_directory_permissions, name, permissions]

theorem loadPrincipal_withoutUser (different : other ≠ user) :
    (tables.withoutUser user).loadPrincipal other = tables.loadPrincipal other := by
  have account : (tables.withoutUser user).users[other]? = tables.users[other]? := getElem?_erase_of_ne different
  have roles : (tables.withoutUser user).directory.roles other = tables.directory.roles other :=
    owned_filter_owner different
  have teams : (tables.withoutUser user).directory.teams other = tables.directory.teams other :=
    owned_filter_owner different
  simp only [loadPrincipal, rolesOfUser_eq, teamsOfUser_eq, account, roles, teams]
  rfl

theorem role?_withoutRole (gone : RoleId) (different : role ≠ gone) :
    (tables.withoutRole gone).role? role = tables.role? role :=
  role?_congr (getElem?_erase_of_ne different) (owned_filter_owner different)

theorem rolesOfUser_withoutRole (gone : RoleId) :
    (tables.withoutRole gone).rolesOfUser user = (tables.rolesOfUser user).filter fun role => role.id ≠ gone := by
  have ids : (tables.withoutRole gone).directory.roles user =
      (tables.directory.roles user).filter fun role => role ≠ gone := owned_filter_value
  rw [rolesOfUser_eq, rolesOfUser_eq, ids]
  exact filterMap_struck (fun _ _ => id_of_role?) (fun _ => role?_withoutRole gone) _

theorem rolesOfTeam_withoutRole (gone : RoleId) :
    (tables.withoutRole gone).rolesOfTeam team = (tables.rolesOfTeam team).filter fun role => role.id ≠ gone := by
  have ids : (tables.withoutRole gone).directory.teamRoles team =
      (tables.directory.teamRoles team).filter fun role => role ≠ gone := owned_filter_value
  rw [rolesOfTeam_eq, rolesOfTeam_eq, ids]
  exact filterMap_struck (fun _ _ => id_of_role?) (fun _ => role?_withoutRole gone) _

theorem teamsOfUser_withoutRole (gone : RoleId) :
    (tables.withoutRole gone).teamsOfUser user = (tables.teamsOfUser user).map (Team.withoutRole gone) := by
  have members : (tables.withoutRole gone).directory.teams user = tables.directory.teams user := rfl
  rw [teamsOfUser_eq, teamsOfUser_eq, members, List.map_filterMap]
  refine List.filterMap_congr fun team _ => ?_
  rw [team?, team?, rolesOfTeam_withoutRole, Option.map_map]
  rfl

theorem loadPrincipal_withoutRole (gone : RoleId) :
    (tables.withoutRole gone).loadPrincipal user = (tables.loadPrincipal user).map (Principal.withoutRole gone) := by
  rw [loadPrincipal, loadPrincipal, rolesOfUser_withoutRole, teamsOfUser_withoutRole, Option.map_map]
  rfl

theorem team?_withoutTeam (gone : TeamId) (different : team ≠ gone) :
    (tables.withoutTeam gone).team? team = tables.team? team := by
  have name : (tables.withoutTeam gone).teams[team]? = tables.teams[team]? := getElem?_erase_of_ne different
  have roles : (tables.withoutTeam gone).directory.teamRoles team = tables.directory.teamRoles team :=
    owned_filter_owner different
  rw [team?, team?, rolesOfTeam_eq, rolesOfTeam_eq, name, roles]
  rfl

theorem loadPrincipal_withoutTeam (gone : TeamId) :
    (tables.withoutTeam gone).loadPrincipal user = (tables.loadPrincipal user).map (Principal.withoutTeam gone) := by
  have members : (tables.withoutTeam gone).directory.teams user =
      (tables.directory.teams user).filter fun team => team ≠ gone := owned_filter_value
  have teams : (tables.withoutTeam gone).teamsOfUser user =
      (tables.teamsOfUser user).filter fun team => team.id ≠ gone := by
    rw [teamsOfUser_eq, teamsOfUser_eq, members]
    exact filterMap_struck (fun _ _ => id_of_team?) (fun _ => team?_withoutTeam gone) _
  rw [loadPrincipal, loadPrincipal, teams, Option.map_map]
  rfl

theorem role?_addRole {other : RoleId} (permissions : List PermissionId) (different : other ≠ role) :
    (Store.step tables (.addRole role permissions)).role? other = tables.role? other := by
  refine role?_congr ?_ ?_
  · simp [step_addRole, ExtTreeMap.getElem?_insertIfNew, Ne.symm different]
  · rw [directory_permissions_addRole, Function.update_of_ne different]

theorem filterMap_role?_addRole (absent : role ∉ tables.roles) (permissions : List PermissionId)
    {ids : ExtTreeSet RoleId} (known : ∀ id ∈ ids, id ∈ tables.roles) :
    ids.toList.filterMap (Store.step tables (.addRole role permissions)).role? = ids.toList.filterMap tables.role? := by
  refine List.filterMap_congr fun id listed => ?_
  exact role?_addRole permissions fun same => absent (same ▸ known id (ExtTreeSet.mem_toList.mp listed))

theorem users_addUser (tables : Database) (user : UserId) (provider : AuthProvider) :
    (Store.step tables (.addUser user provider)).users =
      tables.users.insert user ⟨tables.users[user]?.any UserRow.isRoot, provider.name⟩ :=
  rfl

theorem loadPrincipal_addUser_of_ne (different : other ≠ user) (provider : AuthProvider) :
    (Store.step tables (.addUser user provider)).loadPrincipal other = tables.loadPrincipal other := by
  have account : (Store.step tables (.addUser user provider)).users[other]? = tables.users[other]? := by
    simp [users_addUser, ExtTreeMap.getElem?_insert, Ne.symm different]
  rw [loadPrincipal, loadPrincipal, account]
  rfl

-- No row has these ids. Every reference finds its row, so nothing refers to them.

namespace Referential

theorem directory_roles_of_absent (referential : tables.Referential) (absent : user ∉ tables.users) :
    tables.directory.roles user = ∅ := by
  refine ExtTreeSet.eq_empty_iff_forall_not_mem.mpr fun role own => ?_
  exact absent (referential.userRole_known own).1

theorem directory_teams_of_absent (referential : tables.Referential) (absent : user ∉ tables.users) :
    tables.directory.teams user = ∅ := by
  refine ExtTreeSet.eq_empty_iff_forall_not_mem.mpr fun team member => ?_
  exact absent (referential.teamMember_known member).2

/-- A user who is added under an id that was free has nothing. -/
theorem loadPrincipal_addUser (referential : tables.Referential) (absent : user ∉ tables.users)
    (provider : AuthProvider) :
    (Store.step tables (.addUser user provider)).loadPrincipal user =
      some ⟨user, false, .ofName provider.name, [], []⟩ := by
  have account : (Store.step tables (.addUser user provider)).users[user]? = some ⟨false, provider.name⟩ := by
    simp [users_addUser, ExtTreeMap.getElem?_eq_none absent]
  have roles : (Store.step tables (.addUser user provider)).rolesOfUser user = [] := by
    have none : (Store.step tables (.addUser user provider)).directory.roles user = ∅ :=
      referential.directory_roles_of_absent absent
    simp [rolesOfUser_eq, none]
  have teams : (Store.step tables (.addUser user provider)).teamsOfUser user = [] := by
    have none : (Store.step tables (.addUser user provider)).directory.teams user = ∅ :=
      referential.directory_teams_of_absent absent
    simp [teamsOfUser_eq, none]
  rw [loadPrincipal, account, roles, teams]
  rfl

theorem verification_addUser (referential : tables.Referential) (absent : user ∉ tables.users)
    (provider : AuthProvider) : (Store.step tables (.addUser user provider)).verification user = none := by
  have none : user ∉ tables.emailVerifications := fun stored => absent (referential.emailVerifications user stored)
  exact congrArg (Option.map _) (ExtTreeMap.getElem?_eq_none none)

/-- A role that is created under an id that was free is nobody's. -/
theorem loadPrincipal_addRole (referential : tables.Referential) (absent : role ∉ tables.roles)
    (permissions : List PermissionId) :
    (Store.step tables (.addRole role permissions)).loadPrincipal user = tables.loadPrincipal user := by
  have own : (Store.step tables (.addRole role permissions)).rolesOfUser user = tables.rolesOfUser user := by
    rw [rolesOfUser_eq, rolesOfUser_eq, directory_roles_addRole]
    exact filterMap_role?_addRole absent permissions fun _ own => (referential.userRole_known own).2
  have shared : ∀ team, (Store.step tables (.addRole role permissions)).rolesOfTeam team = tables.rolesOfTeam team := by
    intro team
    rw [rolesOfTeam_eq, rolesOfTeam_eq, directory_teamRoles_addRole]
    exact filterMap_role?_addRole absent permissions fun _ shared => (referential.teamRole_known shared).2
  simp only [loadPrincipal, teamsOfUser, own, shared]
  rw [step_addRole]

/-- A team that is created under an id that was free has nobody in it. -/
theorem loadPrincipal_addTeam (referential : tables.Referential) (absent : team ∉ tables.teams) (name : String) :
    (Store.step tables (.addTeam team name)).loadPrincipal user = tables.loadPrincipal user := by
  have members : (Store.step tables (.addTeam team name)).directory.teams user = tables.directory.teams user := rfl
  have teams : (Store.step tables (.addTeam team name)).teamsOfUser user = tables.teamsOfUser user := by
    rw [teamsOfUser_eq, teamsOfUser_eq, members]
    refine List.filterMap_congr fun other listed => ?_
    have known : other ∈ tables.teams := (referential.teamMember_known (ExtTreeSet.mem_toList.mp listed)).1
    have different : team ≠ other := fun same => absent (same ▸ known)
    have kept : (Store.step tables (.addTeam team name)).teams[other]? = tables.teams[other]? :=
      ExtTreeMap.getElem?_insert.trans (if_neg (by simpa using different))
    rw [team?, team?, kept]
    rfl
  rw [loadPrincipal, loadPrincipal, teams]
  rfl

end Referential

end Database

end AccessControl
