import AccessControl.Store.Database.Tables

/-!
Statements that change the tables, each as a whole or not at all, and transactions of several statements. A row
may be inserted only where the rows it refers to exist, and a row that is deleted takes those with it that refer
to it.
-/

namespace AccessControl.Database

abbrev Statement := Action Database Unit

def requireParent (present : Database → Bool) : Statement := do
  unless present (← get) do throw (.database "FOREIGN KEY constraint failed")

/-- Carries out all statements, or none: when one fails, the tables are as they were. -/
def transaction (statements : List Statement) : Statement := do
  let before ← get
  tryCatch (statements.forM id) fun error => do
    set before
    throw error

theorem perform_requireParent (present : Database → Bool) (tables : Database) :
    (requireParent present).perform tables =
      (if present tables then .ok () else .error (.database "FOREIGN KEY constraint failed"), tables) := by
  simp only [requireParent, Transition.perform_bind, Transition.perform_get]
  cases present tables <;> rfl

theorem perform_transaction (statements : List Statement) (tables : Database) :
    (transaction statements).perform tables =
      match Transition.perform (statements.forM id) tables with
      | (.ok _, after) => (.ok (), after)
      | (.error error, _) => (.error error, tables) := by
  simp only [transaction, Transition.perform_bind, Transition.perform_get, Transition.perform_tryCatch,
    Transition.perform_set, Transition.perform_throw]
  obtain ⟨outcome, after⟩ := Transition.perform (statements.forM id) tables
  cases outcome <;> rfl

def upsertUser (id : UserId) (provider : String) : Statement :=
  modify fun tables =>
    let isRoot := tables.users[id]?.any UserRow.isRoot
    { tables with users := tables.users.insert id ⟨isRoot, provider⟩ }

def updateRoot (id : UserId) (isRoot : Bool) : Statement := do
  match (← get).users[id]? with
  | some user => modify fun tables => { tables with users := tables.users.insert id { user with isRoot := isRoot } }
  | none => throw (.missingUser id)

/-- Inserts a role named by its id, unless there is one. -/
def insertRole (id : RoleId) : Statement :=
  modify fun tables => { tables with roles := tables.roles.insertIfNew id id }

def clearRole (id : RoleId) : Statement :=
  modify fun tables => { tables with rolePermissions := tables.rolePermissions.filter fun row => row.role ≠ id }

def insertRolePermission (role : RoleId) (permission : PermissionId) : Statement := do
  requireParent fun tables => role ∈ tables.roles
  modify fun tables => { tables with rolePermissions := tables.rolePermissions.insert ⟨role, permission⟩ }

def insertUserRole (user : UserId) (role : RoleId) : Statement := do
  requireParent fun tables => user ∈ tables.users && role ∈ tables.roles
  modify fun tables => { tables with userRoles := tables.userRoles.insert ⟨user, role⟩ }

def upsertTeam (id : TeamId) (name : String) : Statement :=
  modify fun tables => { tables with teams := tables.teams.insert id name }

def insertTeamMember (team : TeamId) (user : UserId) : Statement := do
  requireParent fun tables => team ∈ tables.teams && user ∈ tables.users
  modify fun tables => { tables with teamMembers := tables.teamMembers.insert ⟨team, user⟩ }

def insertTeamRole (team : TeamId) (role : RoleId) : Statement := do
  requireParent fun tables => team ∈ tables.teams && role ∈ tables.roles
  modify fun tables => { tables with teamRoles := tables.teamRoles.insert ⟨team, role⟩ }

def upsertGrant (grant : ResourceGrant) : Statement :=
  modify fun tables =>
    { tables with resourcePermissions := tables.resourcePermissions.insert grant.toGrantKey grant.expiresAt }

def upsertVerification (user : UserId) (verifiedAt : Option Timestamp) : Statement := do
  requireParent fun tables => user ∈ tables.users
  modify fun tables => { tables with emailVerifications := tables.emailVerifications.insert user verifiedAt }

def upsertSetting (key value : String) : Statement :=
  modify fun tables => { tables with settings := tables.settings.insert key value }

def upsertCatalogRow (id : PermissionId) (row : CatalogRow) : Statement :=
  modify fun tables => { tables with permissions := tables.permissions.insert id row }

-- A deletion answers the number of rows named that there were, not counting those that went with them.
def rowsOf [Ord κ] [Std.TransOrd κ] (table : Std.ExtTreeMap κ ν) (key : κ) : Nat :=
  if key ∈ table then 1 else 0

def deleteGrant (key : GrantKey) : Action Database Nat := do
  let rows := rowsOf (← get).resourcePermissions key
  modify fun tables => { tables with resourcePermissions := tables.resourcePermissions.erase key }
  return rows

/-- Deletes a user with the user's roles, memberships and verification. Grants on resources stay. -/
def deleteUser (id : UserId) : Action Database Nat := do
  let rows := rowsOf (← get).users id
  modify fun tables =>
    { tables with
      users := tables.users.erase id
      userRoles := tables.userRoles.filter fun row => row.user ≠ id
      teamMembers := tables.teamMembers.filter fun row => row.user ≠ id
      emailVerifications := tables.emailVerifications.erase id }
  return rows

/-- Deletes a role with its permissions and its assignments to users and teams. -/
def deleteRole (id : RoleId) : Action Database Nat := do
  let rows := rowsOf (← get).roles id
  modify fun tables =>
    { tables with
      roles := tables.roles.erase id
      rolePermissions := tables.rolePermissions.filter fun row => row.role ≠ id
      userRoles := tables.userRoles.filter fun row => row.role ≠ id
      teamRoles := tables.teamRoles.filter fun row => row.role ≠ id }
  return rows

/-- Deletes a team with its memberships and roles. Grants on resources stay. -/
def deleteTeam (id : TeamId) : Action Database Nat := do
  let rows := rowsOf (← get).teams id
  modify fun tables =>
    { tables with
      teams := tables.teams.erase id
      teamMembers := tables.teamMembers.filter fun row => row.team ≠ id
      teamRoles := tables.teamRoles.filter fun row => row.team ≠ id }
  return rows

end AccessControl.Database
