import AccessControl.Proofs.Json.RoundTrip
import AccessControl.Proofs.Store.Rows
import AccessControl.Proofs.Store.Simulation

namespace AccessControl

open Std

theorem CatalogRow.permission_ofPermission (permission : Permission) :
    (ofPermission permission).permission permission.id = .ok permission := by
  have dependsOn : readColumn "depends_on" Json.texts? (Json.print (Json.strings permission.dependsOn)) =
      .ok permission.dependsOn := by
    simp [readColumn, Json.parse?_print_strings, Json.texts?_strings]
  have implies : readColumn "implies" Json.texts? (Json.print (Json.strings permission.implies)) =
      .ok permission.implies := by
    simp [readColumn, Json.parse?_print_strings, Json.texts?_strings]
  have metadata : readColumn "metadata" Json.textMap? (Json.print (Json.ofTextMap permission.metadata)) =
      .ok permission.metadata := by
    simp [readColumn, Json.parse?_print_ofTextMap, Json.textMap?_ofTextMap]
  simp only [CatalogRow.permission, ofPermission, dependsOn, implies, metadata, Scope.ofName_name]
  rfl

namespace Simulates

variable {memory : MemoryStore} {tables : Database} {user : UserId} {role : RoleId} {team : TeamId}

theorem permissionsOf (simulates : Simulates memory tables) {stored : StoredRole}
    (found : memory.roles[role]? = some stored) : tables.permissionsOf role = stored.permissions.toList := by
  refine second_column_eq_toList RolePermission.mk (fun _ => rfl) (fun _ => rfl) (fun _ _ => ⟨rfl, rfl⟩) fun permission => ?_
  simp [simulates.rolePermissions, found]

theorem joinRoles (simulates : Simulates memory tables) (ids : ExtTreeSet RoleId) :
    tables.joinRoles ids.toList = (memory.rolesOf ids).flatMap RoleRow.ofRole := by
  unfold Database.joinRoles MemoryStore.rolesOf
  induction ids.toList with
  | nil => rfl
  | cons id rest ih =>
    rw [List.flatMap_cons, ih, List.filterMap_cons, simulates.roles]
    cases found : memory.roles[id]? with
    | none => rfl
    | some stored =>
      simp only [Option.map_some, simulates.permissionsOf found]
      rfl

theorem nodup_rolesOf (memory : MemoryStore) (ids : ExtTreeSet RoleId) :
    ((memory.rolesOf ids).map Role.id).Nodup := by
  refine nodup_filterMap (fun id role found => ?_) ids
  obtain ⟨_, _, rfl⟩ := Option.map_eq_some_iff.mp found
  rfl

theorem rolesOfUser (simulates : Simulates memory tables) {stored : StoredUser}
    (found : memory.users[user]? = some stored) : tables.rolesOfUser user = memory.rolesOf stored.roles := by
  have ids : (tables.userRoles.toList.filter fun row => row.user = user).map UserRole.role = stored.roles.toList := by
    refine second_column_eq_toList UserRole.mk (fun _ => rfl) (fun _ => rfl) (fun _ _ => ⟨rfl, rfl⟩) fun role => ?_
    simp [simulates.userRoles, found]
  rw [Database.rolesOfUser, ids, simulates.joinRoles, collectRoles_flatMap (nodup_rolesOf memory _)]

theorem rolesOfTeam (simulates : Simulates memory tables) {stored : StoredTeam}
    (found : memory.teams[team]? = some stored) : tables.rolesOfTeam team = memory.rolesOf stored.roles := by
  have ids : (tables.teamRoles.toList.filter fun row => row.team = team).map TeamRole.role = stored.roles.toList := by
    refine second_column_eq_toList TeamRole.mk (fun _ => rfl) (fun _ => rfl) (fun _ _ => ⟨rfl, rfl⟩) fun role => ?_
    simp [simulates.teamRoles, found]
  rw [Database.rolesOfTeam, ids, simulates.joinRoles, collectRoles_flatMap (nodup_rolesOf memory _)]

/-- The ids of a user's teams, from the rows of memberships and from the teams with their members. -/
theorem teamIdsOf (simulates : Simulates memory tables) (user : UserId) :
    (tables.teamMembers.toList.filter fun row => row.user = user).map TeamMember.team =
      (memory.teams.toList.filter fun (_, team) => user ∈ team.members).map Prod.fst := by
  refine eq_of_ascending (first_column_ascending fun _ => rfl) (ascending_keys _ _) fun team => ?_
  have rows := simulates.teamMembers team user
  simp only [decide_eq_true_eq, List.mem_map, List.mem_filter, ExtTreeSet.mem_toList, Prod.exists,
    ExtTreeMap.mem_toList_iff_getElem?_eq_some]
  constructor
  · intro listed
    obtain ⟨⟨_, _⟩, ⟨row, rfl⟩, rfl⟩ := listed
    obtain ⟨stored, found, member⟩ := rows.mp row
    exact ⟨_, stored, ⟨found, member⟩, rfl⟩
  · intro listed
    obtain ⟨_, stored, ⟨found, member⟩, rfl⟩ := listed
    exact ⟨_, ⟨rows.mpr ⟨stored, found, member⟩, rfl⟩, rfl⟩

theorem teamsOfUser (simulates : Simulates memory tables) (user : UserId) :
    tables.teamsOfUser user = memory.teamsOf user := by
  have rows : tables.teamsOfUser user =
      ((tables.teamMembers.toList.filter fun row => row.user = user).map TeamMember.team).filterMap fun team =>
        tables.teams[team]?.map fun name => ⟨team, name, tables.rolesOfTeam team⟩ := by
    rw [List.filterMap_map]
    rfl
  rw [rows, simulates.teamIdsOf, List.filterMap_map, MemoryStore.teamsOf, ← List.filterMap_eq_map]
  refine List.filterMap_congr fun ⟨id, stored⟩ member => ?_
  have found : memory.teams[id]? = some stored :=
    ExtTreeMap.mem_toList_iff_getElem?_eq_some.mp (List.mem_filter.mp member).1
  simp [simulates.teams, found, simulates.rolesOfTeam found]

theorem loadPrincipal (simulates : Simulates memory tables) (user : UserId) :
    tables.loadPrincipal user = memory.loadPrincipal user := by
  unfold Database.loadPrincipal MemoryStore.loadPrincipal
  rw [simulates.users]
  cases found : memory.users[user]? with
  | none => rfl
  | some stored =>
    simp only [Option.map_some, StoredUser.row, simulates.providers user stored found, simulates.rolesOfUser found,
      simulates.teamsOfUser user]

theorem grantsFor (simulates : Simulates memory tables) (query : GrantQuery) :
    (memory.resourceGrants query).Perm (tables.grantsFor query) := by
  have distinct : memory.grants.Nodup := List.Nodup.of_map _ simulates.distinctGrants
  have same : memory.grants.Perm tables.grants := by
    refine (List.perm_ext_iff_of_nodup distinct tables.nodup_grants).mpr fun grant => ?_
    rw [simulates.grants, Database.mem_grants]
  exact (same.filter _).trans Database.grantsFor_perm.symm

theorem listPermissions (simulates : Simulates memory tables) :
    tables.listPermissions = .ok memory.catalog.values := by
  have known : ∀ entry ∈ memory.catalog.toList, entry.2.id = entry.1 := by
    intro entry member
    exact simulates.catalogIds entry.1 entry.2 (ExtTreeMap.mem_toList_iff_getElem?_eq_some.mp member)
  rw [Database.listPermissions, simulates.catalog, ExtTreeMap.toList_map, values_eq_map_snd]
  generalize memory.catalog.toList = entries at known ⊢
  induction entries with
  | nil => rfl
  | cons entry rest ih =>
    obtain ⟨sameId, later⟩ := List.forall_mem_cons.mp known
    have first : (CatalogRow.ofPermission entry.2).permission entry.1 = .ok entry.2 := by
      rw [← sameId]
      exact CatalogRow.permission_ofPermission entry.2
    have others := ih later
    rw [List.map_cons, List.mapM_cons, List.map_cons]
    dsimp only at others ⊢
    rw [first, others]
    rfl

end Simulates

end AccessControl
