import AccessControl.Proofs.Store.Runs

namespace AccessControl

open Std

/-- The grant that a write places or withdraws, by its key. -/
def Write.grantKey? : Write → Option GrantKey
  | .grant placed => some placed.toGrantKey
  | .revoke key => some key
  | _ => none

/-- What a write puts into the catalog. -/
def Write.permissions : Write → List Permission
  | .upsertPermissions written => written
  | _ => []

namespace MemoryStore

def grantsAfter (grants : List ResourceGrant) : Write → List ResourceGrant
  | .grant grant => placeGrant grant grants
  | .revoke key => grants.filter fun grant => grant.toGrantKey ≠ key
  | _ => grants

/-- The parts of the store that do not tell who is who. -/
structure Leaves (before after : MemoryStore) (change : Write) : Prop where
  grants : after.grants = grantsAfter before.grants change
  catalog : after.catalog = overwrite before.catalog change.permissions

theorem step_leaves (store : MemoryStore) (change : Write) : Leaves store (Store.step store change) change := by
  change Leaves store ((write change).perform store).2 change
  cases change with
  | addUser user provider => rw [perform_addUser]; exact ⟨rfl, rfl⟩
  | setRoot user isRoot =>
    rw [perform_setRoot]
    cases store.users[user]? <;> exact ⟨rfl, rfl⟩
  | addRole role permissions => exact ⟨rfl, rfl⟩
  | addRolePermission role permission =>
    rw [perform_addRolePermission]
    cases store.roles[role]? <;> exact ⟨rfl, rfl⟩
  | assignRole user role =>
    rw [perform_assignRole]
    cases store.roles[role]? <;> cases store.users[user]? <;> exact ⟨rfl, rfl⟩
  | addTeam team name => rw [perform_addTeam]; exact ⟨rfl, rfl⟩
  | addTeamMember team user =>
    rw [perform_addTeamMember]
    cases store.users[user]? <;> cases store.teams[team]? <;> exact ⟨rfl, rfl⟩
  | assignTeamRole team role =>
    rw [perform_assignTeamRole]
    cases store.roles[role]? <;> cases store.teams[team]? <;> exact ⟨rfl, rfl⟩
  | grant grant => exact ⟨rfl, rfl⟩
  | revoke key => exact ⟨rfl, rfl⟩
  | setVerification user verifiedAt => exact ⟨rfl, rfl⟩
  | requireVerification required => exact ⟨rfl, rfl⟩
  | upsertPermissions permissions => rw [perform_upsertPermissions]; exact ⟨rfl, rfl⟩

end MemoryStore

namespace Database

def grantsAfter (rows : ExtTreeMap GrantKey (Option Timestamp)) : Write → ExtTreeMap GrantKey (Option Timestamp)
  | .grant grant => rows.insert grant.toGrantKey grant.expiresAt
  | .revoke key => rows.erase key
  | _ => rows

/-- The tables that do not tell who is who. -/
structure Leaves (before after : Database) (change : Write) : Prop where
  versions : after.versions = before.versions
  resourcePermissions : after.resourcePermissions = grantsAfter before.resourcePermissions change
  permissions : after.permissions = overwrite before.permissions change.permissions

theorem leaves_guarded {tables changed : Database} {change : Write} {present : Prop} [Decidable present]
    (taken : Leaves tables changed change) (refused : Leaves tables tables change) :
    Leaves tables (if present then (.ok .done, changed) else (.error orphaned, tables) :
      Except StoreError Receipt × Database).2 change :=
  guarded (motive := fun after => Leaves tables after change) tables (fun _ => taken) refused

theorem step_leaves (tables : Database) (change : Write) : Leaves tables (Store.step tables change) change := by
  change Leaves tables ((write change).perform tables).2 change
  cases change with
  | addUser user provider => exact ⟨rfl, rfl, rfl⟩
  | setRoot user isRoot =>
    rw [perform_setRoot]
    cases tables.users[user]? <;> exact ⟨rfl, rfl, rfl⟩
  | addRole role permissions => rw [perform_addRole]; exact ⟨rfl, rfl, rfl⟩
  | addRolePermission role permission =>
    rw [perform_addRolePermission]
    exact leaves_guarded ⟨rfl, rfl, rfl⟩ ⟨rfl, rfl, rfl⟩
  | assignRole user role =>
    rw [perform_assignRole]
    exact leaves_guarded ⟨rfl, rfl, rfl⟩ ⟨rfl, rfl, rfl⟩
  | addTeam team name => exact ⟨rfl, rfl, rfl⟩
  | addTeamMember team user =>
    rw [perform_addTeamMember]
    exact leaves_guarded ⟨rfl, rfl, rfl⟩ ⟨rfl, rfl, rfl⟩
  | assignTeamRole team role =>
    rw [perform_assignTeamRole]
    exact leaves_guarded ⟨rfl, rfl, rfl⟩ ⟨rfl, rfl, rfl⟩
  | grant grant => exact ⟨rfl, rfl, rfl⟩
  | revoke key => exact ⟨rfl, rfl, rfl⟩
  | setVerification user verifiedAt =>
    rw [perform_setVerification]
    exact leaves_guarded ⟨rfl, rfl, rfl⟩ ⟨rfl, rfl, rfl⟩
  | requireVerification required => exact ⟨rfl, rfl, rfl⟩
  | upsertPermissions permissions => rw [perform_upsertPermissions]; exact ⟨rfl, rfl, rfl⟩

end Database

end AccessControl
