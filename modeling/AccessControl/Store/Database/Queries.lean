import AccessControl.Store.Database.Catalog

namespace AccessControl

/-- A role with one of its permissions, or with none if it has none. -/
structure RoleRow where
  role : RoleId
  name : String
  permission : Option PermissionId
deriving DecidableEq

namespace RoleRow

def extend (row : RoleRow) (role : Role) : Role :=
  { role with permissions := role.permissions ++ row.permission.toList }

/-- Takes one more row. It belongs to the role begun last, if the ids agree, or else begins a new role. -/
def collect (roles : List Role) (row : RoleRow) : List Role :=
  match roles with
  | last :: earlier =>
    if last.id = row.role then row.extend last :: earlier
    else row.extend ⟨row.role, row.name, []⟩ :: last :: earlier
  | [] => [row.extend ⟨row.role, row.name, []⟩]

def ofRole (role : Role) : List RoleRow :=
  match role.permissions with
  | [] => [⟨role.id, role.name, none⟩]
  | permissions => permissions.map fun permission => ⟨role.id, role.name, some permission⟩

end RoleRow

/-- The roles whose rows these are. The rows of one role have to stand together. -/
def collectRoles (rows : List RoleRow) : List Role :=
  (rows.foldl RoleRow.collect []).reverse

namespace Database

/-- The setting that says whether local users must verify their email address. -/
def verificationSetting : String := "local.require_email_verification"

def permissionsOf (tables : Database) (role : RoleId) : List PermissionId :=
  (tables.rolePermissions.toList.filter fun row => row.role = role).map RolePermission.permission

/-- Joins ids of roles with the roles and their permissions. -/
def joinRoles (tables : Database) (ids : List RoleId) : List RoleRow :=
  ids.flatMap fun id =>
    match tables.roles[id]? with
    | some name => RoleRow.ofRole ⟨id, name, tables.permissionsOf id⟩
    | none => []

def rolesOfUser (tables : Database) (user : UserId) : List Role :=
  collectRoles (tables.joinRoles ((tables.userRoles.toList.filter fun row => row.user = user).map UserRole.role))

def rolesOfTeam (tables : Database) (team : TeamId) : List Role :=
  collectRoles (tables.joinRoles ((tables.teamRoles.toList.filter fun row => row.team = team).map TeamRole.role))

def teamsOfUser (tables : Database) (user : UserId) : List Team :=
  (tables.teamMembers.toList.filter fun row => row.user = user).filterMap fun row =>
    tables.teams[row.team]?.map fun name => ⟨row.team, name, tables.rolesOfTeam row.team⟩

def loadPrincipal (tables : Database) (id : UserId) : Option Principal :=
  tables.users[id]?.map fun user =>
    { userId := id
      isRoot := user.isRoot
      provider := .ofName user.provider
      roles := tables.rolesOfUser id
      teams := tables.teamsOfUser id }

def selects (query : GrantQuery) (key : GrantKey) (expiresAt : Option Timestamp) : Bool :=
  key.resourceType = query.resourceType && key.resourceId = query.resourceId &&
    (expiresAt.isNone || expiresAt.any fun time => query.now < time) &&
    (key.holder.kind = .user && key.holder.id = query.userId ||
      key.holder.kind = .team && query.teamIds.contains key.holder.id)

/-- The columns by which the grants on one resource are ordered. -/
def listingColumns (grant : ResourceGrant) : List String :=
  [grant.permission, grant.holder.kind.name, grant.holder.id]

def grantsFor (tables : Database) (query : GrantQuery) : List ResourceGrant :=
  let selected := tables.resourcePermissions.toList.filter fun (key, expiresAt) => selects query key expiresAt
  let found := selected.map fun (key, expiresAt) => ({ key with expiresAt := expiresAt } : ResourceGrant)
  found.mergeSort fun first second => (compareOn listingColumns first second).isLE

/-- How many parameters a statement may have. They are numbered from one on. -/
def parameterLimit : Nat := 32766

/-- How many parameters the statement for grants has before those for teams: the type and the id of the resource, the
time and the user. -/
def commonParameters : Nat := 4

def userStatement : String :=
  "SELECT resource_type, resource_id, principal_type, principal_id, permission_id, expires_at\n" ++
  "         FROM resource_permissions\n" ++
  "         WHERE resource_type = ?1 AND resource_id = ?2\n" ++
  "           AND (expires_at IS NULL OR expires_at > ?3)\n" ++
  "           AND ((principal_type = 'user' AND principal_id = ?4)"

def teamStatement : String :=
  " OR (principal_type = 'team' AND principal_id IN ("

def teamParameters (teams : Nat) : List String :=
  (List.range teams).map fun index => "?" ++ toString (commonParameters + index + 1)

/-- The text of the statement that looks for the grants of a user and of so many teams. -/
def grantStatement (teams : Nat) : String :=
  let ofTeams := if teams = 0 then "" else teamStatement ++ ", ".intercalate (teamParameters teams) ++ "))"
  userStatement ++ ofTeams ++ ") ORDER BY permission_id, principal_type, principal_id"

/-- The failure is at the first parameter whose number is beyond the limit. -/
def tooManyParameters (teams : Nat) : StoreError :=
  let before := (teamParameters (parameterLimit - commonParameters)).map fun parameter => parameter ++ ", "
  let offset := (userStatement ++ teamStatement ++ String.join before).utf8ByteSize
  .database ("variable number must be between ?1 and ?" ++ toString parameterLimit ++ " in " ++ grantStatement teams ++
    " at offset " ++ toString offset)

/-- Why the grants of these teams cannot be asked for, if they cannot. Each team takes a parameter of its own, even one
that has been named before. -/
def refusal (teamIds : List TeamId) : Option StoreError :=
  if commonParameters + teamIds.length ≤ parameterLimit then none else some (tooManyParameters teamIds.length)

def resourceGrants (tables : Database) (query : GrantQuery) : Except StoreError (List ResourceGrant) :=
  match refusal query.teamIds with
  | some error => .error error
  | none => .ok (tables.grantsFor query)

def verification (tables : Database) (user : UserId) : Option Verification :=
  tables.emailVerifications[user]?.map fun verifiedAt => ⟨user, verifiedAt⟩

/-- Only the setting `true`, exactly so written, requires verification. -/
def verificationRequired (tables : Database) : Bool :=
  tables.settings[verificationSetting]? = some "true"

def listPermissions (tables : Database) : Except StoreError (List Permission) :=
  tables.permissions.toList.mapM fun (id, row) => row.permission id

end Database

end AccessControl
