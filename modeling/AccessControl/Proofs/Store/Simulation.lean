import AccessControl.Proofs.Store.Grants
import AccessControl.Proofs.Store.Writes

/-!
The tables that stand for a memory store. What one record refers to there is a row of a table of its own here; each
write keeps the two together, accepting and refusing the same.
-/

namespace AccessControl

open Std

def StoredUser.row (user : StoredUser) : UserRow :=
  ⟨user.isRoot, user.provider.name⟩

structure Simulates (memory : MemoryStore) (tables : Database) : Prop where
  users : ∀ id : UserId, tables.users[id]? = memory.users[id]?.map StoredUser.row
  /-- Providers are written by name only. -/
  providers : ∀ (id : UserId) (user : StoredUser), memory.users[id]? = some user →
    .ofName user.provider.name = user.provider
  userRoles : ∀ user role, ⟨user, role⟩ ∈ tables.userRoles ↔
    ∃ stored, memory.users[user]? = some stored ∧ role ∈ stored.roles
  roles : ∀ id : RoleId, tables.roles[id]? = memory.roles[id]?.map StoredRole.name
  roleNames : ∀ (id : RoleId) (role : StoredRole), memory.roles[id]? = some role → role.name = id
  rolePermissions : ∀ role permission, ⟨role, permission⟩ ∈ tables.rolePermissions ↔
    ∃ stored, memory.roles[role]? = some stored ∧ permission ∈ stored.permissions
  teams : ∀ id : TeamId, tables.teams[id]? = memory.teams[id]?.map StoredTeam.name
  teamMembers : ∀ team user, ⟨team, user⟩ ∈ tables.teamMembers ↔
    ∃ stored, memory.teams[team]? = some stored ∧ user ∈ stored.members
  teamRoles : ∀ team role, ⟨team, role⟩ ∈ tables.teamRoles ↔
    ∃ stored, memory.teams[team]? = some stored ∧ role ∈ stored.roles
  grants : ∀ grant, grant ∈ memory.grants ↔ tables.resourcePermissions[grant.toGrantKey]? = some grant.expiresAt
  distinctGrants : (MemoryStore.keys memory.grants).Nodup
  verifications : ∀ user : UserId, memory.verifications[user]? =
    tables.emailVerifications[user]?.map (Verification.mk user)
  verificationRequired : memory.verificationRequired = tables.verificationRequired
  catalog : tables.permissions = memory.catalog.map fun _ => CatalogRow.ofPermission
  catalogIds : ∀ (id : PermissionId) (permission : Permission), memory.catalog[id]? = some permission → permission.id = id

section

variable {map : ExtTreeMap String α} {key id : String} {new : α}

/-- What is told of each record is kept if the new record tells what the old one did. -/
theorem map_getElem?_insert {tell : α → β} (same : map[key]?.map tell = some (tell new)) :
    (map.insert key new)[id]?.map tell = map[id]?.map tell := by
  simp only [ExtTreeMap.getElem?_insert, Std.compare_eq_iff_eq]
  by_cases here : key = id
  · subst here
    simp [same]
  · simp [here]

/-- What holds of the record of an id still does if it holds of the new record just when it did of the old. -/
theorem exists_getElem?_insert {holds : α → Prop} (same : holds new ↔ ∃ before, map[key]? = some before ∧ holds before) :
    (∃ stored, (map.insert key new)[id]? = some stored ∧ holds stored) ↔
      ∃ stored, map[id]? = some stored ∧ holds stored := by
  simp only [ExtTreeMap.getElem?_insert, Std.compare_eq_iff_eq]
  by_cases here : key = id
  · subst here
    simp [same]
  · simp [here]

/-- A reference added to the record of one id is a row added to the table of references. -/
theorem mem_insert_row [Row ρ] {rows : ExtTreeSet ρ} {make : String → String → ρ} {refers : α → ExtTreeSet String}
    {stored : α} {value other : String} (fields : ∀ id other, make key value = make id other ↔ key = id ∧ value = other)
    (present : map[key]? = some stored) (added : refers new = (refers stored).insert value)
    (before : ∀ id other, make id other ∈ rows ↔ ∃ stored, map[id]? = some stored ∧ other ∈ refers stored) :
    make id other ∈ rows.insert (make key value) ↔
      ∃ stored, (map.insert key new)[id]? = some stored ∧ other ∈ refers stored := by
  simp only [ExtTreeSet.mem_insert, ExtTreeMap.getElem?_insert, Std.compare_eq_iff_eq, fields, before]
  by_cases here : key = id
  · subst here
    simp [present, added]
  · simp [here]

end

theorem Database.mem_replacePermissions {rows : ExtTreeSet RolePermission} {role : RoleId}
    {permissions : List PermissionId} {row : RolePermission} :
    row ∈ replacePermissions rows role permissions ↔
      if row.role = role then row.permission ∈ permissions else row ∈ rows := by
  have inserted : ∀ start : ExtTreeSet RolePermission,
      row ∈ permissions.foldl (fun rows permission => rows.insert ⟨role, permission⟩) start ↔
        row ∈ start ∨ row.role = role ∧ row.permission ∈ permissions := by
    induction permissions with
    | nil => simp
    | cons permission rest ih =>
      intro start
      obtain ⟨other, granted⟩ := row
      simp only [List.foldl_cons, ih, ExtTreeSet.mem_insert, Std.compare_eq_iff_eq, RolePermission.mk.injEq,
        List.mem_cons]
      grind
  rw [replacePermissions, inserted]
  by_cases same : row.role = role
  · simp [same]
  · simp [same]

namespace Simulates

variable {memory : MemoryStore} {tables : Database} {user : UserId} {role : RoleId} {team : TeamId}
  {permission : PermissionId}

theorem empty : Simulates .empty .empty where
  users := by simp [MemoryStore.empty, Database.empty, Database.prepare, Database.blank]
  providers := by simp [MemoryStore.empty]
  userRoles := by simp [MemoryStore.empty, Database.empty, Database.prepare, Database.blank]
  roles := by simp [MemoryStore.empty, Database.empty, Database.prepare, Database.blank]
  roleNames := by simp [MemoryStore.empty]
  rolePermissions := by simp [MemoryStore.empty, Database.empty, Database.prepare, Database.blank]
  teams := by simp [MemoryStore.empty, Database.empty, Database.prepare, Database.blank]
  teamMembers := by simp [MemoryStore.empty, Database.empty, Database.prepare, Database.blank]
  teamRoles := by simp [MemoryStore.empty, Database.empty, Database.prepare, Database.blank]
  grants := by simp [MemoryStore.empty, Database.empty, Database.prepare, Database.blank]
  distinctGrants := by simp [MemoryStore.empty]
  verifications := by simp [MemoryStore.empty, Database.empty, Database.prepare, Database.blank]
  verificationRequired := by decide
  catalog := by
    refine ExtTreeMap.ext_getElem? fun id => ?_
    simp [MemoryStore.empty, Database.empty, Database.prepare, Database.blank]
  catalogIds := by simp [MemoryStore.empty]

theorem mem_users (simulates : Simulates memory tables) :
    user ∈ tables.users ↔ ∃ stored, memory.users[user]? = some stored := by
  rw [← ExtTreeMap.isSome_getElem?_iff_mem, simulates.users, Option.isSome_map, Option.isSome_iff_exists]

theorem mem_roles (simulates : Simulates memory tables) :
    role ∈ tables.roles ↔ ∃ stored, memory.roles[role]? = some stored := by
  rw [← ExtTreeMap.isSome_getElem?_iff_mem, simulates.roles, Option.isSome_map, Option.isSome_iff_exists]

theorem mem_teams (simulates : Simulates memory tables) :
    team ∈ tables.teams ↔ ∃ stored, memory.teams[team]? = some stored := by
  rw [← ExtTreeMap.isSome_getElem?_iff_mem, simulates.teams, Option.isSome_map, Option.isSome_iff_exists]

/-- A user is written over, with the roles the user has had. -/
theorem putUser (simulates : Simulates memory tables) {stored : StoredUser}
    (faithful : .ofName stored.provider.name = stored.provider)
    (sameRoles : ∀ role, role ∈ stored.roles ↔ ∃ before, memory.users[user]? = some before ∧ role ∈ before.roles) :
    Simulates { memory with users := memory.users.insert user stored }
      { tables with users := tables.users.insert user stored.row } :=
  { simulates with
    users := fun id => by
      have before := simulates.users id
      simp only [ExtTreeMap.getElem?_insert]
      split
      · rfl
      · exact before
    providers := fun id other present => by
      have before := simulates.providers id other
      simp only [ExtTreeMap.getElem?_insert] at present
      split at present
      · cases present
        exact faithful
      · exact before present
    userRoles := fun id role => (simulates.userRoles id role).trans (exists_getElem?_insert (sameRoles role)).symm }

theorem assignRole (simulates : Simulates memory tables) {stored : StoredUser}
    (present : memory.users[user]? = some stored) :
    Simulates { memory with users := memory.users.insert user { stored with roles := stored.roles.insert role } }
      { tables with userRoles := tables.userRoles.insert ⟨user, role⟩ } :=
  { simulates with
    users := fun id => by
      refine (simulates.users id).trans (map_getElem?_insert ?_).symm
      rw [present]
      rfl
    providers := fun id other found => by
      have faithful := simulates.providers user stored present
      have before := simulates.providers id other
      simp only [ExtTreeMap.getElem?_insert] at found
      split at found
      · cases found
        exact faithful
      · exact before found
    userRoles := fun id other =>
      mem_insert_row (fun _ _ => Eq.to_iff (UserRole.mk.injEq ..)) present rfl simulates.userRoles }

/-- A role's permissions are replaced in both, the role being created if need be. -/
theorem putRole (simulates : Simulates memory tables) {permissions : PermissionSet}
    {rows : ExtTreeSet RolePermission}
    (replaced : ∀ row : RolePermission, row ∈ rows ↔
      if row.role = role then row.permission ∈ permissions else row ∈ tables.rolePermissions) :
    Simulates { memory with roles := memory.roles.insert role ⟨role, permissions⟩ }
      { tables with roles := tables.roles.insertIfNew role role, rolePermissions := rows } :=
  { simulates with
    roles := fun id => by
      have before := simulates.roles id
      simp only [ExtTreeMap.getElem?_insert, ExtTreeMap.getElem?_insertIfNew, Std.compare_eq_iff_eq]
      by_cases same : role = id
      · subst same
        by_cases known : role ∈ tables.roles
        -- A known role keeps its row; that is right only because roles are named by their ids.
        · obtain ⟨stored, found⟩ := simulates.mem_roles.mp known
          have name := simulates.roleNames role stored found
          have value : tables.roles[role]? = some role := by rw [before, found, Option.map_some, name]
          rw [if_neg (by simp [known]), if_pos rfl, value]
          rfl
        · simp [known]
      · simp [same, before]
    roleNames := fun id other found => by
      have before := simulates.roleNames id other
      simp only [ExtTreeMap.getElem?_insert, Std.compare_eq_iff_eq] at found
      by_cases same : role = id
      · subst same
        simp only [if_true, Option.some.injEq] at found
        rw [← found]
      · simp only [same, if_false] at found
        exact before found
    rolePermissions := fun id permission => by
      have before := simulates.rolePermissions id permission
      rw [replaced]
      simp only [ExtTreeMap.getElem?_insert, Std.compare_eq_iff_eq]
      by_cases same : id = role
      · subst same
        simp
      · simp [same, Ne.symm same, before] }

theorem addRole (simulates : Simulates memory tables) (permissions : List PermissionId) :
    Simulates { memory with roles := memory.roles.insert role ⟨role, .ofList permissions⟩ }
      { tables with
        roles := tables.roles.insertIfNew role role
        rolePermissions := Database.replacePermissions tables.rolePermissions role permissions } := by
  refine simulates.putRole fun row => ?_
  rw [Database.mem_replacePermissions]
  simp

theorem addRolePermission (simulates : Simulates memory tables) {stored : StoredRole}
    (present : memory.roles[role]? = some stored) :
    Simulates
      { memory with
        roles := memory.roles.insert role { stored with permissions := stored.permissions.insert permission } }
      { tables with rolePermissions := tables.rolePermissions.insert ⟨role, permission⟩ } := by
  have name := simulates.roleNames role stored present
  have known : role ∈ tables.roles := simulates.mem_roles.mpr ⟨stored, present⟩
  have kept : tables.roles.insertIfNew role role = tables.roles := by
    refine ExtTreeMap.ext_getElem? fun id => ?_
    simp only [ExtTreeMap.getElem?_insertIfNew]
    split
    · next both => exact absurd known (by simpa using both.2)
    · rfl
  have written : Simulates
      { memory with roles := memory.roles.insert role ⟨role, stored.permissions.insert permission⟩ }
      { tables with
        roles := tables.roles.insertIfNew role role
        rolePermissions := tables.rolePermissions.insert ⟨role, permission⟩ } := by
    refine simulates.putRole fun ⟨other, granted⟩ => ?_
    have before := simulates.rolePermissions other granted
    simp only [ExtTreeSet.mem_insert, Std.compare_eq_iff_eq, RolePermission.mk.injEq, before]
    by_cases same : other = role
    · subst same
      simp [present]
    · simp [same, Ne.symm same]
  rw [kept] at written
  rw [name]
  exact written

/-- A team is written over, with the members and the roles that it has had. -/
theorem putTeam (simulates : Simulates memory tables) {stored : StoredTeam}
    (sameMembers : ∀ user, user ∈ stored.members ↔
      ∃ before, memory.teams[team]? = some before ∧ user ∈ before.members)
    (sameRoles : ∀ role, role ∈ stored.roles ↔ ∃ before, memory.teams[team]? = some before ∧ role ∈ before.roles) :
    Simulates { memory with teams := memory.teams.insert team stored }
      { tables with teams := tables.teams.insert team stored.name } :=
  { simulates with
    teams := fun id => by
      have before := simulates.teams id
      simp only [ExtTreeMap.getElem?_insert]
      split
      · rfl
      · exact before
    teamMembers := fun id user =>
      (simulates.teamMembers id user).trans (exists_getElem?_insert (sameMembers user)).symm
    teamRoles := fun id role => (simulates.teamRoles id role).trans (exists_getElem?_insert (sameRoles role)).symm }

theorem addTeamMember (simulates : Simulates memory tables) {stored : StoredTeam}
    (present : memory.teams[team]? = some stored) :
    Simulates { memory with teams := memory.teams.insert team { stored with members := stored.members.insert user } }
      { tables with teamMembers := tables.teamMembers.insert ⟨team, user⟩ } :=
  { simulates with
    teams := fun id => by
      refine (simulates.teams id).trans (map_getElem?_insert ?_).symm
      rw [present]
      rfl
    teamMembers := fun id other =>
      mem_insert_row (fun _ _ => Eq.to_iff (TeamMember.mk.injEq ..)) present rfl simulates.teamMembers
    teamRoles := fun id role => by
      refine (simulates.teamRoles id role).trans (exists_getElem?_insert ?_).symm
      simp [present] }

theorem assignTeamRole (simulates : Simulates memory tables) {stored : StoredTeam}
    (present : memory.teams[team]? = some stored) :
    Simulates { memory with teams := memory.teams.insert team { stored with roles := stored.roles.insert role } }
      { tables with teamRoles := tables.teamRoles.insert ⟨team, role⟩ } :=
  { simulates with
    teams := fun id => by
      refine (simulates.teams id).trans (map_getElem?_insert ?_).symm
      rw [present]
      rfl
    teamMembers := fun id user => by
      refine (simulates.teamMembers id user).trans (exists_getElem?_insert ?_).symm
      simp [present]
    teamRoles := fun id other =>
      mem_insert_row (fun _ _ => Eq.to_iff (TeamRole.mk.injEq ..)) present rfl simulates.teamRoles }

theorem placeGrant (simulates : Simulates memory tables) (grant : ResourceGrant) :
    Simulates { memory with grants := MemoryStore.placeGrant grant memory.grants }
      { tables with
        resourcePermissions := tables.resourcePermissions.insert grant.toGrantKey grant.expiresAt } :=
  { simulates with
    grants := fun other => by
      have before := simulates.grants other
      simp only [MemoryStore.mem_placeGrant simulates.distinctGrants, ExtTreeMap.getElem?_insert, Std.compare_eq_iff_eq,
        before]
      by_cases same : grant.toGrantKey = other.toGrantKey
      · obtain ⟨key, expiresAt⟩ := grant
        obtain ⟨otherKey, otherExpiresAt⟩ := other
        simp only at same
        subst same
        simp [eq_comm]
      · have different : other ≠ grant := fun equal => same (congrArg ResourceGrant.toGrantKey equal.symm)
        simp [same, Ne.symm same, different]
    distinctGrants := MemoryStore.nodup_keys_placeGrant simulates.distinctGrants }

theorem dropGrant (simulates : Simulates memory tables) (key : GrantKey) :
    Simulates { memory with grants := memory.grants.filter fun grant => grant.toGrantKey ≠ key }
      { tables with resourcePermissions := tables.resourcePermissions.erase key } :=
  { simulates with
    grants := fun other => by
      have before := simulates.grants other
      simp only [List.mem_filter, before, ExtTreeMap.getElem?_erase, Std.compare_eq_iff_eq]
      by_cases same : key = other.toGrantKey
      · simp [same]
      · simp [same, Ne.symm same]
    distinctGrants := MemoryStore.nodup_keys_filter simulates.distinctGrants _ }

theorem mem_keys (simulates : Simulates memory tables) {key : GrantKey} :
    key ∈ MemoryStore.keys memory.grants ↔ key ∈ tables.resourcePermissions := by
  rw [← ExtTreeMap.isSome_getElem?_iff_mem, Option.isSome_iff_exists, List.mem_map]
  constructor
  · intro keyed
    obtain ⟨grant, held, rfl⟩ := keyed
    exact ⟨grant.expiresAt, (simulates.grants grant).mp held⟩
  · intro keyed
    obtain ⟨expiresAt, row⟩ := keyed
    exact ⟨⟨key, expiresAt⟩, (simulates.grants ⟨key, expiresAt⟩).mpr row, rfl⟩

theorem setVerification (simulates : Simulates memory tables) (verifiedAt : Option Timestamp) :
    Simulates { memory with verifications := memory.verifications.insert user ⟨user, verifiedAt⟩ }
      { tables with emailVerifications := tables.emailVerifications.insert user verifiedAt } :=
  { simulates with
    verifications := fun other => by
      have before := simulates.verifications other
      simp only [ExtTreeMap.getElem?_insert, Std.compare_eq_iff_eq]
      by_cases same : user = other
      · subst same
        simp
      · simp [same, before] }

theorem requireVerification (simulates : Simulates memory tables) (required : Bool) :
    Simulates { memory with verificationRequired := required }
      { tables with
        settings := tables.settings.insert Database.verificationSetting (if required then "true" else "false") } :=
  { simulates with
    verificationRequired := by cases required <;> simp [Database.verificationRequired] }

theorem overwrite (simulates : Simulates memory tables) (permissions : List Permission) :
    Simulates { memory with catalog := MemoryStore.overwrite memory.catalog permissions }
      { tables with permissions := Database.overwrite tables.permissions permissions } := by
  induction permissions generalizing memory tables with
  | nil => exact simulates
  | cons permission rest ih =>
    have first : Simulates { memory with catalog := memory.catalog.insert permission.id permission }
        { tables with permissions := tables.permissions.insert permission.id (.ofPermission permission) } :=
      { simulates with
        catalog := by
          refine ExtTreeMap.ext_getElem? fun id => ?_
          simp only [simulates.catalog, ExtTreeMap.getElem?_insert, ExtTreeMap.getElem?_map]
          split
          · rfl
          · rfl
        catalogIds := fun id other found => by
          have before := simulates.catalogIds id other
          simp only [ExtTreeMap.getElem?_insert, Std.compare_eq_iff_eq] at found
          split at found
          · next same =>
            cases found
            exact same
          · exact before found }
    exact ih first

end Simulates

end AccessControl
