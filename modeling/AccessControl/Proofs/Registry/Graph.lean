import Mathlib.Data.Set.Basic
import Mathlib.Logic.Relation
import AccessControl.Registry.Basic

namespace AccessControl.Registry

open Relation

variable {registry : Registry} {id target : PermissionId} {roots : Set PermissionId}

def DependsOn (registry : Registry) (id target : PermissionId) : Prop :=
  target ∈ registry.dependencies id

def Implies (registry : Registry) (id target : PermissionId) : Prop :=
  target ∈ registry.implied id

def requirements (registry : Registry) (id : PermissionId) : Set PermissionId :=
  {target | TransGen registry.DependsOn id target}

/-- The target is the permission itself, or is come upon from it by dependencies of registered permissions. -/
def Reaches (registry : Registry) : PermissionId → PermissionId → Prop :=
  ReflTransGen fun id target => id ∈ registry ∧ registry.DependsOn id target

/-- The given permissions and what they imply, directly or through others. -/
def impliedBy (registry : Registry) (roots : Set PermissionId) : Set PermissionId :=
  {target | ∃ root ∈ roots, ReflTransGen registry.Implies root target}

def OnCycle (registry : Registry) (id : PermissionId) : Prop :=
  id ∈ registry.requirements id

/-- A registered permission all of whose requirements are registered and none of them, nor itself, on a cycle. -/
structure Resolvable (registry : Registry) (id : PermissionId) : Prop where
  registered : id ∈ registry
  requirements : ∀ target ∈ registry.requirements id, target ∈ registry
  acyclic : ¬ registry.OnCycle id ∧ ∀ target ∈ registry.requirements id, ¬ registry.OnCycle target

/-- The edges are those that the stored permission names. -/
theorem dependsOn_iff :
    registry.DependsOn id target ↔
      ∃ permission, registry.find? id = some permission ∧ target ∈ permission.dependsOn := by
  unfold DependsOn dependencies
  cases registry.find? id <;> simp

theorem implies_iff :
    registry.Implies id target ↔
      ∃ permission, registry.find? id = some permission ∧ target ∈ permission.implies := by
  unfold Implies implied
  cases registry.find? id <;> simp

theorem mem_of_dependsOn (edge : registry.DependsOn id target) : id ∈ registry := by
  obtain ⟨_, found, _⟩ := dependsOn_iff.mp edge
  exact find?_isSome.mp (Option.isSome_of_eq_some found)

theorem mem_of_implies (edge : registry.Implies id target) : id ∈ registry := by
  obtain ⟨_, found, _⟩ := implies_iff.mp edge
  exact find?_isSome.mp (Option.isSome_of_eq_some found)

theorem mem_of_requires (path : target ∈ registry.requirements id) : id ∈ registry := by
  obtain ⟨next, edge, _⟩ := TransGen.head'_iff.mp path
  exact mem_of_dependsOn edge

theorem reaches_of_requires (path : target ∈ registry.requirements id) : registry.Reaches id target := by
  induction path with
  | single edge => exact .single ⟨mem_of_dependsOn edge, edge⟩
  | tail _ edge ih => exact ih.tail ⟨mem_of_dependsOn edge, edge⟩

theorem subset_impliedBy : roots ⊆ registry.impliedBy roots :=
  fun root given => ⟨root, given, .refl⟩

theorem impliedBy_mono {wider : Set PermissionId} (subset : roots ⊆ wider) :
    registry.impliedBy roots ⊆ registry.impliedBy wider := by
  intro target member
  obtain ⟨root, given, path⟩ := member
  exact ⟨root, subset given, path⟩

theorem impliedBy_union (left right : Set PermissionId) :
    registry.impliedBy (left ∪ right) = registry.impliedBy left ∪ registry.impliedBy right := by
  ext target
  constructor
  · intro member
    obtain ⟨root, given | given, path⟩ := member
    · exact .inl ⟨root, given, path⟩
    · exact .inr ⟨root, given, path⟩
  · intro member
    rcases member with ⟨root, given, path⟩ | ⟨root, given, path⟩
    · exact ⟨root, .inl given, path⟩
    · exact ⟨root, .inr given, path⟩

theorem impliedBy_impliedBy : registry.impliedBy (registry.impliedBy roots) = registry.impliedBy roots := by
  refine Set.Subset.antisymm ?_ subset_impliedBy
  intro target member
  obtain ⟨between, ⟨root, given, path⟩, further⟩ := member
  exact ⟨root, given, path.trans further⟩

theorem implied_mem_impliedBy (member : id ∈ registry.impliedBy roots) (edge : registry.Implies id target) :
    target ∈ registry.impliedBy roots := by
  obtain ⟨root, given, path⟩ := member
  exact ⟨root, given, path.tail edge⟩

end AccessControl.Registry
