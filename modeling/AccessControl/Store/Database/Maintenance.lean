import AccessControl.Store.Database.Queries
import AccessControl.Store.Database.Statements

namespace AccessControl

/-- The columns of the catalog whose text is read by a rule of its own. -/
inductive CatalogColumn where
  | scope
  | dependsOn
  | implies
  | metadata
deriving DecidableEq

namespace CatalogColumn

def overwrite (column : CatalogColumn) (text : String) (row : CatalogRow) : CatalogRow :=
  match column with
  | scope => { row with scope := text }
  | dependsOn => { row with dependsOn := text }
  | implies => { row with implies := text }
  | metadata => { row with metadata := text }

end CatalogColumn

namespace Database

def overwriteCatalog (id : PermissionId) (column : CatalogColumn) (text : String) : Action Database Nat := do
  let rows := rowsOf (← get).permissions id
  modify fun tables => { tables with permissions := tables.permissions.modify id (column.overwrite text) }
  return rows

/-- Any flag but zero makes the user root. -/
def overwriteUser (id : UserId) (rootFlag : Int) (provider : String) : Action Database Nat := do
  let rows := rowsOf (← get).users id
  modify fun tables => { tables with users := tables.users.modify id fun _ => ⟨rootFlag ≠ 0, provider⟩ }
  return rows

def renameRole (id : RoleId) (name : String) : Action Database Nat := do
  let rows := rowsOf (← get).roles id
  modify fun tables => { tables with roles := tables.roles.modify id fun _ => name }
  return rows

def overwriteVerificationSetting (value : String) : Action Database Nat := do
  upsertSetting verificationSetting value
  return 1

end Database

end AccessControl
