import Std.Data.ExtTreeMap
import Std.Data.ExtTreeSet
import AccessControl.ResourceGrant.Basic
import AccessControl.Store.Basic

/-!
The tables of a relational store. What one record refers to in another is a row of a table of its own. A row has columns
of text that identify it, and a table lists its rows in the order of those columns.
-/

namespace AccessControl

/-- A key of a table, as its columns give it. -/
class Row (ρ : Type) where
  columns : ρ → List String
  columns_inj : ∀ {left right : ρ}, columns left = columns right → left = right

instance Row.ord [Row ρ] : Ord ρ := ⟨compareOn Row.columns⟩

instance Row.transOrd [Row ρ] : Std.TransOrd ρ :=
  inferInstanceAs (Std.TransCmp (compareOn (Row.columns : ρ → List String)))

instance Row.lawfulEqOrd [Row ρ] : Std.LawfulEqOrd ρ where
  eq_of_compare {left right} (same : compare (Row.columns left) (Row.columns right) = .eq) :=
    Row.columns_inj (Std.LawfulEqCmp.eq_of_compare same)

structure UserRow where
  isRoot : Bool
  provider : String
deriving DecidableEq

structure UserRole where
  user : UserId
  role : RoleId
deriving DecidableEq

structure RolePermission where
  role : RoleId
  permission : PermissionId
deriving DecidableEq

structure TeamMember where
  team : TeamId
  user : UserId
deriving DecidableEq

structure TeamRole where
  team : TeamId
  role : RoleId
deriving DecidableEq

/-- A permission of the catalog. The edges and the metadata are JSON text. -/
structure CatalogRow where
  moduleName : String
  category : String
  displayName : String
  description : String
  scope : String
  dependsOn : String
  implies : String
  metadata : String
deriving DecidableEq

instance : Row UserRole where
  columns row := [row.user, row.role]
  columns_inj {left right} same := by
    cases left; cases right
    simpa using same

instance : Row RolePermission where
  columns row := [row.role, row.permission]
  columns_inj {left right} same := by
    cases left; cases right
    simpa using same

instance : Row TeamMember where
  columns row := [row.team, row.user]
  columns_inj {left right} same := by
    cases left; cases right
    simpa using same

instance : Row TeamRole where
  columns row := [row.team, row.role]
  columns_inj {left right} same := by
    cases left; cases right
    simpa using same

instance : Row GrantKey where
  columns key := [key.resourceType, key.resourceId, key.holder.kind.name, key.holder.id, key.permission]
  columns_inj {left right} same := by
    obtain ⟨_, _, ⟨leftKind, _⟩, _⟩ := left
    obtain ⟨_, _, ⟨rightKind, _⟩, _⟩ := right
    simp only [List.cons.injEq, and_true] at same
    obtain ⟨rfl, rfl, sameKind, rfl, rfl⟩ := same
    rw [PrincipalKind.name_inj sameKind]

structure Database where
  /-- The versions of the schema that have been applied. -/
  versions : Std.ExtTreeSet Nat
  users : Std.ExtTreeMap UserId UserRow
  roles : Std.ExtTreeMap RoleId String
  rolePermissions : Std.ExtTreeSet RolePermission
  userRoles : Std.ExtTreeSet UserRole
  teams : Std.ExtTreeMap TeamId String
  teamMembers : Std.ExtTreeSet TeamMember
  teamRoles : Std.ExtTreeSet TeamRole
  /-- When each grant expires, if it does. -/
  resourcePermissions : Std.ExtTreeMap GrantKey (Option Timestamp)
  /-- When each user who was asked to verify has done so, if at all. -/
  emailVerifications : Std.ExtTreeMap UserId (Option Timestamp)
  settings : Std.ExtTreeMap String String
  permissions : Std.ExtTreeMap PermissionId CatalogRow
deriving DecidableEq

namespace Database

def blank : Database :=
  { versions := ∅, users := ∅, roles := ∅, rolePermissions := ∅, userRoles := ∅, teams := ∅, teamMembers := ∅,
    teamRoles := ∅, resourcePermissions := ∅, emailVerifications := ∅, settings := ∅, permissions := ∅ }

/-- Prepares a database for use: creates the tables, unless that has been done. -/
def prepare (database : Database) : Database :=
  if database.versions.isEmpty then { blank with versions := {1} } else database

def empty : Database := blank.prepare

end Database

end AccessControl
