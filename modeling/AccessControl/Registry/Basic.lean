import AccessControl.Permission.Normal
import AccessControl.Registry.Error
import AccessControl.Transition

namespace AccessControl

structure Registry where
  entries : Std.ExtTreeMap PermissionId Permission
deriving DecidableEq

namespace Registry

def empty : Registry := ⟨∅⟩

instance : EmptyCollection Registry := ⟨empty⟩

instance : Membership PermissionId Registry := ⟨fun registry id => id ∈ registry.entries⟩

instance (id : PermissionId) (registry : Registry) : Decidable (id ∈ registry) :=
  inferInstanceAs (Decidable (id ∈ registry.entries))

def find? (registry : Registry) (id : PermissionId) : Option Permission :=
  registry.entries[id]?

/-- What a permission depends on directly; nothing for an id that is not registered. -/
def dependencies (registry : Registry) (id : PermissionId) : List PermissionId :=
  ((registry.find? id).map Permission.dependsOn).getD []

def implied (registry : Registry) (id : PermissionId) : List PermissionId :=
  ((registry.find? id).map Permission.implies).getD []

def size (registry : Registry) : Nat := registry.entries.size

def ids (registry : Registry) : List PermissionId := registry.entries.keys

/-- The registered permissions in ascending order of their ids. -/
def permissions (registry : Registry) : List Permission := registry.entries.values

def ofModule (registry : Registry) (moduleName : String) : List Permission :=
  registry.permissions.filter fun permission => permission.moduleName = moduleName

/-- The normal form under which a permission may be added, or why it may not. -/
def accept (registry : Registry) (permission : Permission) : Except RegistryError Permission :=
  let normal := permission.normalize
  if normal.id = "" then .error .emptyId
  else if normal.id ∈ normal.dependsOn then .error (.selfDependency normal.id)
  else if normal.id ∈ normal.implies then .error (.selfImplication normal.id)
  else if normal.id ∈ registry then .error (.duplicateId normal.id)
  else .ok normal

def insert (registry : Registry) (permission : Permission) : Registry :=
  ⟨registry.entries.insert permission.id permission⟩

theorem mem_iff_mem_entries {registry : Registry} {id : PermissionId} :
    id ∈ registry ↔ id ∈ registry.entries :=
  Iff.rfl

@[simp] theorem mem_ids {registry : Registry} {id : PermissionId} : id ∈ registry.ids ↔ id ∈ registry := by
  simp [ids, mem_iff_mem_entries]

theorem find?_isSome {registry : Registry} {id : PermissionId} :
    (registry.find? id).isSome = true ↔ id ∈ registry := by
  simp [find?, mem_iff_mem_entries]

theorem find?_eq_none_iff {registry : Registry} {id : PermissionId} : registry.find? id = none ↔ id ∉ registry := by
  simp [find?, mem_iff_mem_entries]

@[simp] theorem not_mem_empty {id : PermissionId} : id ∉ empty := by
  simp [mem_iff_mem_entries, empty]

@[simp] theorem mem_insert {registry : Registry} {permission : Permission} {id : PermissionId} :
    id ∈ registry.insert permission ↔ permission.id = id ∨ id ∈ registry := by
  simp [mem_iff_mem_entries, insert, Std.ExtTreeMap.mem_insert]

theorem find?_insert {registry : Registry} {permission : Permission} {id : PermissionId} :
    (registry.insert permission).find? id = if permission.id = id then some permission else registry.find? id := by
  simp [find?, insert, Std.ExtTreeMap.getElem?_insert]

theorem ext_find? {left right : Registry} (same : ∀ id, left.find? id = right.find? id) : left = right := by
  cases left; cases right
  exact congrArg Registry.mk (Std.ExtTreeMap.ext_getElem? same)

theorem ids_pairwise_lt (registry : Registry) : registry.ids.Pairwise fun a b => compare a b = .lt :=
  Std.ExtTreeMap.ordered_keys

theorem nodup_ids (registry : Registry) : registry.ids.Nodup :=
  registry.ids_pairwise_lt.imp fun less same => by simp [same] at less

/-- What is accepted is the normal form, with an id that is new and no edge to itself. -/
theorem accept_eq_ok_iff {registry : Registry} {permission normal : Permission} :
    registry.accept permission = .ok normal ↔
      normal = permission.normalize ∧ normal.id ≠ "" ∧ normal.id ∉ normal.dependsOn ∧
        normal.id ∉ normal.implies ∧ normal.id ∉ registry := by
  unfold accept
  grind

end Registry

/-- Steps that add permissions to a registry. What was added before a step failed stays. -/
abbrev Registration := Transition RegistryError Registry

namespace Registration

def register (permission : Permission) : Registration Unit := do
  let registry ← get
  let normal ← .ofExcept (registry.accept permission)
  set (registry.insert normal)

theorem perform_register (permission : Permission) (registry : Registry) :
    (register permission).perform registry =
      match registry.accept permission with
      | .ok normal => (.ok (), registry.insert normal)
      | .error error => (.error error, registry) := by
  simp only [register, Transition.perform_bind, Transition.perform_get, Transition.perform_ofExcept,
    Transition.perform_set]
  cases registry.accept permission <;> rfl

/-- Registers one permission after the other, up to the first that may not be added. -/
def registerAll (permissions : List Permission) : Registration Unit :=
  permissions.forM register

theorem perform_registerAll_nil (registry : Registry) : (registerAll []).perform registry = (.ok (), registry) :=
  rfl

theorem perform_registerAll_cons (permission : Permission) (rest : List Permission) (registry : Registry) :
    (registerAll (permission :: rest)).perform registry =
      match registry.accept permission with
      | .ok normal => (registerAll rest).perform (registry.insert normal)
      | .error error => (.error error, registry) := by
  simp only [registerAll, List.forM_eq_forM, List.forM_cons, Transition.perform_bind, perform_register]
  cases registry.accept permission <;> rfl

end Registration

end AccessControl
