import AccessControl.Store.Database.Basic
import AccessControl.Store.Memory

namespace AccessControl

open Transition AccessControl.Action

namespace MemoryStore

variable (store : MemoryStore) {user : UserId} {role : RoleId} {team : TeamId} {permission : PermissionId}

theorem perform_findUser : (findUser user).perform store =
    match store.users[user]? with
    | some stored => (.ok stored, store)
    | none => (.error (.missingUser user), store) := by
  simp only [findUser, perform_bind, perform_get]
  cases store.users[user]? <;> rfl

theorem perform_findRole : (findRole role).perform store =
    match store.roles[role]? with
    | some stored => (.ok stored, store)
    | none => (.error (.missingRole role), store) := by
  simp only [findRole, perform_bind, perform_get]
  cases store.roles[role]? <;> rfl

theorem perform_findTeam : (findTeam team).perform store =
    match store.teams[team]? with
    | some stored => (.ok stored, store)
    | none => (.error (.missingTeam team), store) := by
  simp only [findTeam, perform_bind, perform_get]
  cases store.teams[team]? <;> rfl

theorem perform_addUser (provider : AuthProvider) : (write (.addUser user provider)).perform store =
    (.ok .done, { store with
      users := store.users.insert user
        { (store.users[user]?.getD ⟨false, provider, ∅⟩) with provider := provider } }) := by
  simp only [write, addUser, perform_answering, perform_bind, perform_get]
  cases store.users[user]? <;> rfl

theorem perform_setRoot (isRoot : Bool) : (write (.setRoot user isRoot)).perform store =
    match store.users[user]? with
    | some stored => (.ok .done, { store with users := store.users.insert user { stored with isRoot } })
    | none => (.error (.missingUser user), store) := by
  simp only [write, setRoot, perform_answering, perform_bind, perform_findUser]
  cases store.users[user]? <;> rfl

theorem perform_addRole (permissions : List PermissionId) : (write (.addRole role permissions)).perform store =
    (.ok .done, { store with roles := store.roles.insert role ⟨role, .ofList permissions⟩ }) :=
  rfl

theorem perform_addRolePermission : (write (.addRolePermission role permission)).perform store =
    match store.roles[role]? with
    | some stored => (.ok .done, { store with
        roles := store.roles.insert role { stored with permissions := stored.permissions.insert permission } })
    | none => (.error (.missingRole role), store) := by
  simp only [write, addRolePermission, perform_answering, perform_bind, perform_findRole]
  cases store.roles[role]? <;> rfl

theorem perform_assignRole : (write (.assignRole user role)).perform store =
    match store.roles[role]?, store.users[user]? with
    | some _, some stored => (.ok .done, { store with
        users := store.users.insert user { stored with roles := stored.roles.insert role } })
    | none, _ => (.error (.missingRole role), store)
    | some _, none => (.error (.missingUser user), store) := by
  simp only [write, assignRole, perform_answering, perform_bind, perform_findRole, perform_findUser]
  cases store.roles[role]? with
  | none => rfl
  | some _ =>
    dsimp only
    cases store.users[user]? <;> rfl

theorem perform_addTeam (name : String) : (write (.addTeam team name)).perform store =
    (.ok .done, { store with
      teams := store.teams.insert team { (store.teams[team]?.getD ⟨name, ∅, ∅⟩) with name := name } }) := by
  simp only [write, addTeam, perform_answering, perform_bind, perform_get]
  cases store.teams[team]? <;> rfl

theorem perform_addTeamMember : (write (.addTeamMember team user)).perform store =
    match store.users[user]?, store.teams[team]? with
    | some _, some stored => (.ok .done, { store with
        teams := store.teams.insert team { stored with members := stored.members.insert user } })
    | none, _ => (.error (.missingUser user), store)
    | some _, none => (.error (.missingTeam team), store) := by
  simp only [write, addTeamMember, perform_answering, perform_bind, perform_findUser, perform_findTeam]
  cases store.users[user]? with
  | none => rfl
  | some _ =>
    dsimp only
    cases store.teams[team]? <;> rfl

theorem perform_assignTeamRole : (write (.assignTeamRole team role)).perform store =
    match store.roles[role]?, store.teams[team]? with
    | some _, some stored => (.ok .done, { store with
        teams := store.teams.insert team { stored with roles := stored.roles.insert role } })
    | none, _ => (.error (.missingRole role), store)
    | some _, none => (.error (.missingTeam team), store) := by
  simp only [write, assignTeamRole, perform_answering, perform_bind, perform_findRole, perform_findTeam]
  cases store.roles[role]? with
  | none => rfl
  | some _ =>
    dsimp only
    cases store.teams[team]? <;> rfl

theorem perform_grant (grant : ResourceGrant) : (write (.grant grant)).perform store =
    (.ok .done, { store with grants := placeGrant grant store.grants }) :=
  rfl

theorem perform_revoke (key : GrantKey) : (write (.revoke key)).perform store =
    (.ok (.count (store.grants.length - (store.grants.filter fun grant => grant.toGrantKey ≠ key).length)),
      { store with grants := store.grants.filter fun grant => grant.toGrantKey ≠ key }) :=
  rfl

theorem perform_setVerification (verifiedAt : Option Timestamp) :
    (write (.setVerification user verifiedAt)).perform store =
      (.ok .done, { store with verifications := store.verifications.insert user ⟨user, verifiedAt⟩ }) :=
  rfl

theorem perform_requireVerification (required : Bool) : (write (.requireVerification required)).perform store =
    (.ok .done, { store with verificationRequired := required }) :=
  rfl

def overwrite (catalog : Std.ExtTreeMap PermissionId Permission) (permissions : List Permission) :
    Std.ExtTreeMap PermissionId Permission :=
  permissions.foldl (fun catalog permission => catalog.insert permission.id permission) catalog

theorem perform_upsertPermissions (permissions : List Permission) :
    (write (.upsertPermissions permissions)).perform store =
      (.ok (.count permissions.length), { store with catalog := overwrite store.catalog permissions }) := by
  have written : Transition.perform (permissions.forM putPermission) store =
      (.ok ⟨⟩, { store with catalog := overwrite store.catalog permissions }) := by
    induction permissions generalizing store with
    | nil => rfl
    | cons permission rest ih =>
      rw [List.forM_eq_forM, List.forM_cons, perform_bind, putPermission, perform_modify]
      exact ih _
  rw [write, upsertPermissions, map_answering, perform_answering, written]
  rfl

end MemoryStore

namespace Database

variable (tables : Database) {user : UserId} {role : RoleId} {team : TeamId} {permission : PermissionId}

/-- What is refused for want of a parent row. -/
def orphaned : StoreError := .database "FOREIGN KEY constraint failed"

theorem perform_addUser (provider : AuthProvider) : (write (.addUser user provider)).perform tables =
    (.ok .done, { tables with
      users := tables.users.insert user ⟨tables.users[user]?.any UserRow.isRoot, provider.name⟩ }) :=
  rfl

theorem perform_setRoot (isRoot : Bool) : (write (.setRoot user isRoot)).perform tables =
    match tables.users[user]? with
    | some row => (.ok .done, { tables with users := tables.users.insert user { row with isRoot } })
    | none => (.error (.missingUser user), tables) := by
  simp only [write, updateRoot, perform_answering, perform_bind, perform_get]
  cases tables.users[user]? <;> rfl

/-- What is inserted only where its parents are. -/
theorem perform_guarded (present : Database → Bool) (update : Database → Database) :
    (answering (do requireParent present; modify update) Receipt.done).perform tables =
      if present tables then (.ok .done, update tables) else (.error orphaned, tables) := by
  rw [perform_answering, perform_bind, perform_requireParent]
  cases present tables <;> rfl

/-- What holds of the tables as they were, and of the change wherever the parents are, holds after the attempt. -/
theorem guarded {motive : Database → Prop} {present : Prop} [Decidable present] {receipt : Receipt}
    {changed : Database} (taken : present → motive changed) (refused : motive tables) :
    motive (if present then (.ok receipt, changed) else (.error orphaned, tables) :
      Except StoreError Receipt × Database).2 := by
  split
  · next here => exact taken here
  · exact refused

theorem perform_addRolePermission : (write (.addRolePermission role permission)).perform tables =
    if role ∈ tables.roles then
      (.ok .done, { tables with rolePermissions := tables.rolePermissions.insert ⟨role, permission⟩ })
    else (.error orphaned, tables) := by
  rw [write, insertRolePermission, perform_guarded]
  simp

theorem perform_assignRole : (write (.assignRole user role)).perform tables =
    if user ∈ tables.users ∧ role ∈ tables.roles then
      (.ok .done, { tables with userRoles := tables.userRoles.insert ⟨user, role⟩ })
    else (.error orphaned, tables) := by
  rw [write, insertUserRole, perform_guarded]
  simp

theorem perform_addTeam (name : String) : (write (.addTeam team name)).perform tables =
    (.ok .done, { tables with teams := tables.teams.insert team name }) :=
  rfl

theorem perform_addTeamMember : (write (.addTeamMember team user)).perform tables =
    if team ∈ tables.teams ∧ user ∈ tables.users then
      (.ok .done, { tables with teamMembers := tables.teamMembers.insert ⟨team, user⟩ })
    else (.error orphaned, tables) := by
  rw [write, insertTeamMember, perform_guarded]
  simp

theorem perform_assignTeamRole : (write (.assignTeamRole team role)).perform tables =
    if team ∈ tables.teams ∧ role ∈ tables.roles then
      (.ok .done, { tables with teamRoles := tables.teamRoles.insert ⟨team, role⟩ })
    else (.error orphaned, tables) := by
  rw [write, insertTeamRole, perform_guarded]
  simp

theorem perform_setVerification (verifiedAt : Option Timestamp) :
    (write (.setVerification user verifiedAt)).perform tables =
      if user ∈ tables.users then
        (.ok .done, { tables with emailVerifications := tables.emailVerifications.insert user verifiedAt })
      else (.error orphaned, tables) := by
  rw [write, upsertVerification, perform_guarded]
  simp

theorem perform_grant (grant : ResourceGrant) : (write (.grant grant)).perform tables =
    (.ok .done, { tables with
      resourcePermissions := tables.resourcePermissions.insert grant.toGrantKey grant.expiresAt }) :=
  rfl

theorem perform_revoke (key : GrantKey) : (write (.revoke key)).perform tables =
    (.ok (.count (rowsOf tables.resourcePermissions key)),
      { tables with resourcePermissions := tables.resourcePermissions.erase key }) :=
  rfl

theorem perform_requireVerification (required : Bool) : (write (.requireVerification required)).perform tables =
    (.ok .done, { tables with
      settings := tables.settings.insert verificationSetting (if required then "true" else "false") }) :=
  rfl

def replacePermissions (rows : Std.ExtTreeSet RolePermission) (role : RoleId) (permissions : List PermissionId) :
    Std.ExtTreeSet RolePermission :=
  permissions.foldl (fun rows permission => rows.insert ⟨role, permission⟩) (rows.filter fun row => row.role ≠ role)

theorem perform_insertRolePermissions (permissions : List PermissionId) (present : role ∈ tables.roles) :
    Transition.perform ((permissions.map (insertRolePermission role)).forM id) tables =
      (.ok ⟨⟩, { tables with
        rolePermissions :=
          permissions.foldl (fun rows permission => rows.insert ⟨role, permission⟩) tables.rolePermissions }) := by
  induction permissions generalizing tables with
  | nil => rfl
  | cons permission rest ih =>
    have first : (insertRolePermission role permission).perform tables =
        (.ok ⟨⟩, { tables with rolePermissions := tables.rolePermissions.insert ⟨role, permission⟩ }) := by
      rw [insertRolePermission, perform_bind, perform_requireParent, if_pos (by simpa using present)]
      rfl
    rw [List.map_cons, List.forM_eq_forM, List.forM_cons, id, perform_bind, first]
    exact ih _ present

theorem perform_addRole (permissions : List PermissionId) : (write (.addRole role permissions)).perform tables =
    (.ok .done, { tables with
      roles := tables.roles.insertIfNew role role
      rolePermissions := replacePermissions tables.rolePermissions role permissions }) := by
  have present : role ∈ tables.roles.insertIfNew role role := Std.ExtTreeMap.mem_insertIfNew_self
  have inserted := perform_insertRolePermissions
    { tables with
      roles := tables.roles.insertIfNew role role
      rolePermissions := tables.rolePermissions.filter fun row => row.role ≠ role } permissions present
  have statements : Transition.perform ((addRoleStatements role permissions).forM id) tables =
      (.ok ⟨⟩, { tables with
        roles := tables.roles.insertIfNew role role
        rolePermissions := replacePermissions tables.rolePermissions role permissions }) := inserted
  rw [write, perform_answering, perform_transaction, statements]
  rfl

def overwrite (catalog : Std.ExtTreeMap PermissionId CatalogRow) (permissions : List Permission) :
    Std.ExtTreeMap PermissionId CatalogRow :=
  permissions.foldl (fun catalog permission => catalog.insert permission.id (.ofPermission permission)) catalog

theorem perform_upsertPermissions (permissions : List Permission) :
    (write (.upsertPermissions permissions)).perform tables =
      (.ok (.count permissions.length), { tables with permissions := overwrite tables.permissions permissions }) := by
  have statements : Transition.perform ((upsertStatements permissions).forM id) tables =
      (.ok ⟨⟩, { tables with permissions := overwrite tables.permissions permissions }) := by
    unfold upsertStatements
    induction permissions generalizing tables with
    | nil => rfl
    | cons permission rest ih =>
      rw [List.map_cons, List.forM_eq_forM, List.forM_cons, id, perform_bind, upsertCatalogRow, perform_modify]
      exact ih _
  rw [write, upsertPermissions, map_answering, perform_answering, perform_transaction, statements]
  rfl

end Database

end AccessControl
