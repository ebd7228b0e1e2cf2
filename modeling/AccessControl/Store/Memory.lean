import AccessControl.Store.Basic

namespace AccessControl

structure StoredUser where
  isRoot : Bool
  provider : AuthProvider
  roles : Std.ExtTreeSet RoleId
deriving DecidableEq

structure StoredRole where
  name : String
  permissions : PermissionSet
deriving DecidableEq

structure StoredTeam where
  name : String
  members : Std.ExtTreeSet UserId
  roles : Std.ExtTreeSet RoleId
deriving DecidableEq

structure MemoryStore where
  users : Std.ExtTreeMap UserId StoredUser
  roles : Std.ExtTreeMap RoleId StoredRole
  teams : Std.ExtTreeMap TeamId StoredTeam
  /-- No two of one key, in the order in which their keys were first granted. -/
  grants : List ResourceGrant
  verifications : Std.ExtTreeMap UserId Verification
  verificationRequired : Bool
  catalog : Std.ExtTreeMap PermissionId Permission
deriving DecidableEq

namespace MemoryStore

def empty : MemoryStore :=
  { users := ∅, roles := ∅, teams := ∅, grants := [], verifications := ∅, verificationRequired := false,
    catalog := ∅ }

def findUser (id : UserId) : Action MemoryStore StoredUser := do
  match (← get).users[id]? with
  | some user => return user
  | none => throw (.missingUser id)

def findRole (id : RoleId) : Action MemoryStore StoredRole := do
  match (← get).roles[id]? with
  | some role => return role
  | none => throw (.missingRole id)

def findTeam (id : TeamId) : Action MemoryStore StoredTeam := do
  match (← get).teams[id]? with
  | some team => return team
  | none => throw (.missingTeam id)

def putUser (id : UserId) (user : StoredUser) : Action MemoryStore Unit :=
  modify fun store => { store with users := store.users.insert id user }

def putRole (id : RoleId) (role : StoredRole) : Action MemoryStore Unit :=
  modify fun store => { store with roles := store.roles.insert id role }

def putTeam (id : TeamId) (team : StoredTeam) : Action MemoryStore Unit :=
  modify fun store => { store with teams := store.teams.insert id team }

def addUser (id : UserId) (provider : AuthProvider) : Action MemoryStore Unit := do
  match (← get).users[id]? with
  | some user => putUser id { user with provider := provider }
  | none => putUser id { isRoot := false, provider := provider, roles := ∅ }

def setRoot (id : UserId) (isRoot : Bool) : Action MemoryStore Unit := do
  let user ← findUser id
  putUser id { user with isRoot := isRoot }

def addRole (id : RoleId) (permissions : List PermissionId) : Action MemoryStore Unit :=
  putRole id { name := id, permissions := .ofList permissions }

def addRolePermission (id : RoleId) (permission : PermissionId) : Action MemoryStore Unit := do
  let role ← findRole id
  putRole id { role with permissions := role.permissions.insert permission }

def assignRole (userId : UserId) (roleId : RoleId) : Action MemoryStore Unit := do
  let _ ← findRole roleId
  let user ← findUser userId
  putUser userId { user with roles := user.roles.insert roleId }

def addTeam (id : TeamId) (name : String) : Action MemoryStore Unit := do
  match (← get).teams[id]? with
  | some team => putTeam id { team with name := name }
  | none => putTeam id { name := name, members := ∅, roles := ∅ }

def addTeamMember (teamId : TeamId) (userId : UserId) : Action MemoryStore Unit := do
  let _ ← findUser userId
  let team ← findTeam teamId
  putTeam teamId { team with members := team.members.insert userId }

def assignTeamRole (teamId : TeamId) (roleId : RoleId) : Action MemoryStore Unit := do
  let _ ← findRole roleId
  let team ← findTeam teamId
  putTeam teamId { team with roles := team.roles.insert roleId }

/-- Puts a grant in the place of the one with its key, or at the end. -/
def placeGrant (grant : ResourceGrant) : List ResourceGrant → List ResourceGrant
  | [] => [grant]
  | first :: rest =>
    if first.toGrantKey = grant.toGrantKey then grant :: rest else first :: placeGrant grant rest

def grantResource (grant : ResourceGrant) : Action MemoryStore Unit :=
  modify fun store => { store with grants := placeGrant grant store.grants }

def revokeResource (key : GrantKey) : Action MemoryStore Nat := do
  let before := (← get).grants
  let after := before.filter fun grant => grant.toGrantKey ≠ key
  modify fun store => { store with grants := after }
  return before.length - after.length

def setVerification (user : UserId) (verifiedAt : Option Timestamp) : Action MemoryStore Unit :=
  modify fun store => { store with verifications := store.verifications.insert user ⟨user, verifiedAt⟩ }

def requireVerification (required : Bool) : Action MemoryStore Unit :=
  modify fun store => { store with verificationRequired := required }

def putPermission (permission : Permission) : Action MemoryStore Unit :=
  modify fun store => { store with catalog := store.catalog.insert permission.id permission }

def upsertPermissions (permissions : List Permission) : Action MemoryStore Nat :=
  Action.answering (permissions.forM putPermission) permissions.length

def write : Write → Action MemoryStore Receipt
  | .addUser user provider => (addUser user provider).answering .done
  | .setRoot user isRoot => (setRoot user isRoot).answering .done
  | .addRole role permissions => (addRole role permissions).answering .done
  | .addRolePermission role permission => (addRolePermission role permission).answering .done
  | .assignRole user role => (assignRole user role).answering .done
  | .addTeam team name => (addTeam team name).answering .done
  | .addTeamMember team user => (addTeamMember team user).answering .done
  | .assignTeamRole team role => (assignTeamRole team role).answering .done
  | .grant grant => (grantResource grant).answering .done
  | .revoke key => do return .count (← revokeResource key)
  | .setVerification user verifiedAt => (setVerification user verifiedAt).answering .done
  | .requireVerification required => (requireVerification required).answering .done
  | .upsertPermissions permissions => do return .count (← upsertPermissions permissions)

def rolesOf (store : MemoryStore) (ids : Std.ExtTreeSet RoleId) : List Role :=
  ids.toList.filterMap fun id =>
    store.roles[id]?.map fun role => ⟨id, role.name, role.permissions.toList⟩

def teamsOf (store : MemoryStore) (user : UserId) : List Team :=
  (store.teams.toList.filter fun (_, team) => user ∈ team.members).map fun (id, team) =>
    ⟨id, team.name, store.rolesOf team.roles⟩

def loadPrincipal (store : MemoryStore) (id : UserId) : Option Principal :=
  store.users[id]?.map fun user =>
    { userId := id
      isRoot := user.isRoot
      provider := user.provider
      roles := store.rolesOf user.roles
      teams := store.teamsOf id }

def resourceGrants (store : MemoryStore) (query : GrantQuery) : List ResourceGrant :=
  store.grants.filter query.isMatch

instance : Store MemoryStore where
  empty := empty
  upsertPermissions := upsertPermissions
  write := write
  write_upsertPermissions _ := rfl
  loadPrincipal store user := .ok (store.loadPrincipal user)
  resourceGrants store query := .ok (store.resourceGrants query)
  verification store user := .ok store.verifications[user]?
  verificationRequired store := .ok store.verificationRequired
  listPermissions store := .ok store.catalog.values

end MemoryStore

end AccessControl
