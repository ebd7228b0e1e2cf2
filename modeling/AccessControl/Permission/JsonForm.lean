import AccessControl.Json.Record
import AccessControl.Permission.Basic

namespace AccessControl

open Json RecordReader

def Scope.toJson (scope : Scope) : Json := .string scope.name

/-- Unlike `Scope.ofName` this knows the two names only. -/
def Scope.ofJson? (json : Json) : Option Scope := do
  let name ← name? json
  if name = "global" then return .global
  else if name = "resource" then return .resource
  else none

def Permission.toJson (permission : Permission) : Json :=
  .object
    [("id", .string permission.id),
      ("module", .string permission.moduleName),
      ("category", .string permission.category),
      ("display_name", .string permission.displayName),
      ("description", .string permission.description),
      ("default_scope", permission.scope.toJson),
      ("depends_on", strings permission.dependsOn),
      ("implies", strings permission.implies),
      ("metadata", ofTextMap permission.metadata)]

def Permission.ofJson? : Json → Option Permission :=
  run? do
    return {
      id := ← required "id" text?
      moduleName := ← required "module" text?
      category := ← withDefault "category" text? ""
      displayName := ← withDefault "display_name" text? ""
      description := ← withDefault "description" text? ""
      scope := ← withDefault "default_scope" Scope.ofJson? .global
      dependsOn := ← withDefault "depends_on" texts? []
      implies := ← withDefault "implies" texts? []
      metadata := ← withDefault "metadata" textMap? ∅ }

end AccessControl
