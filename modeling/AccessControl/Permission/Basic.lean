import Std.Data.ExtTreeMap
import Std.Data.ExtTreeSet

/-!
Permissions: named capabilities with two kinds of edges to other permissions. A permission is of use only
together with those it depends on, and whoever is granted a permission is granted those it implies.
-/

namespace AccessControl

abbrev PermissionId := String

abbrev PermissionSet := Std.ExtTreeSet PermissionId

abbrev TextMap := Std.ExtTreeMap String String

/-- Where a permission is normally granted. This is a hint for display: no check looks at it. -/
inductive Scope where
  | global
  | resource
deriving DecidableEq

namespace Scope

def name : Scope → String
  | global => "global"
  | resource => "resource"

def ofName (name : String) : Scope :=
  if name = "resource" then resource else global

@[simp] theorem ofName_name (scope : Scope) : ofName scope.name = scope := by
  cases scope <;> simp [ofName, name]

end Scope

structure Permission where
  id : PermissionId
  moduleName : String
  category : String := ""
  displayName : String := ""
  description : String := ""
  scope : Scope := .global
  dependsOn : List PermissionId := []
  implies : List PermissionId := []
  metadata : TextMap := ∅
deriving DecidableEq

end AccessControl
