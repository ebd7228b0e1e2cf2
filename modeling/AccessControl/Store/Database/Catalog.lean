import AccessControl.Json.Parser
import AccessControl.Json.Record
import AccessControl.Store.Database.Tables

/-!
Catalog rows and the permissions they stand for. Every permission has a row; a row stands for a permission only
if its edges are JSON lists of strings and its metadata is a JSON object of strings.
-/

namespace AccessControl

open Json

def CatalogRow.ofPermission (permission : Permission) : CatalogRow :=
  { moduleName := permission.moduleName
    category := permission.category
    displayName := permission.displayName
    description := permission.description
    scope := permission.scope.name
    dependsOn := print (strings permission.dependsOn)
    implies := print (strings permission.implies)
    metadata := print (ofTextMap permission.metadata) }

def readColumn (column : String) (read? : Json → Option α) (text : String) : Except StoreError α :=
  match (parse? text).bind read? with
  | some value => .ok value
  | none => .error (.serialization ("unreadable column " ++ column))

def CatalogRow.permission (row : CatalogRow) (id : PermissionId) : Except StoreError Permission := do
  return {
    id := id
    moduleName := row.moduleName
    category := row.category
    displayName := row.displayName
    description := row.description
    scope := .ofName row.scope
    dependsOn := ← readColumn "depends_on" texts? row.dependsOn
    implies := ← readColumn "implies" texts? row.implies
    metadata := ← readColumn "metadata" textMap? row.metadata }

end AccessControl
