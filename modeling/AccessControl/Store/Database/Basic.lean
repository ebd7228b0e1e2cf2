import AccessControl.Store.Database.Queries
import AccessControl.Store.Database.Statements

namespace AccessControl.Database

def addRoleStatements (role : RoleId) (permissions : List PermissionId) : List Statement :=
  insertRole role :: clearRole role :: permissions.map (insertRolePermission role)

def upsertStatements (permissions : List Permission) : List Statement :=
  permissions.map fun permission => upsertCatalogRow permission.id (.ofPermission permission)

def upsertPermissions (permissions : List Permission) : Action Database Nat :=
  (transaction (upsertStatements permissions)).answering permissions.length

def write : Write → Action Database Receipt
  | .addUser user provider => (upsertUser user provider.name).answering .done
  | .setRoot user isRoot => (updateRoot user isRoot).answering .done
  | .addRole role permissions => (transaction (addRoleStatements role permissions)).answering .done
  | .addRolePermission role permission => (insertRolePermission role permission).answering .done
  | .assignRole user role => (insertUserRole user role).answering .done
  | .addTeam team name => (upsertTeam team name).answering .done
  | .addTeamMember team user => (insertTeamMember team user).answering .done
  | .assignTeamRole team role => (insertTeamRole team role).answering .done
  | .grant grant => (upsertGrant grant).answering .done
  | .revoke key => do return .count (← deleteGrant key)
  | .setVerification user verifiedAt => (upsertVerification user verifiedAt).answering .done
  | .requireVerification required =>
    (upsertSetting verificationSetting (if required then "true" else "false")).answering .done
  | .upsertPermissions permissions => do return .count (← upsertPermissions permissions)

instance : Store Database where
  empty := empty
  upsertPermissions := upsertPermissions
  write := write
  write_upsertPermissions _ := rfl
  loadPrincipal tables user := .ok (tables.loadPrincipal user)
  resourceGrants := resourceGrants
  verification tables user := .ok (tables.verification user)
  verificationRequired tables := .ok tables.verificationRequired
  listPermissions := listPermissions

end AccessControl.Database
