import AccessControl.Proofs.Registry.Closure
import AccessControl.Proofs.Registry.Resolution
import AccessControl.Registry.Validity

namespace AccessControl.Registry

open Relation

variable {registry : Registry} {id target : PermissionId}

structure Safe (registry : Registry) : Prop where
  dependencies : ∀ id target, registry.DependsOn id target → target ∈ registry
  implications : ∀ id target, registry.Implies id target → target ∈ registry
  acyclic : ∀ id, ¬ registry.OnCycle id

theorem forM_eq_ok_iff {items : List α} {action : α → Except ε PUnit} :
    items.forM action = .ok ⟨⟩ ↔ ∀ item ∈ items, action item = .ok ⟨⟩ := by
  induction items with
  | nil => simp [pure, Except.pure]
  | cons first rest ih =>
    rw [List.forM_eq_forM, List.forM_cons, List.forall_mem_cons, ← ih]
    cases action first with
    | error error => simp [bind, Except.bind]
    | ok _ => simp [bind, Except.bind]

theorem checkEdges_eq_ok_iff {edges : PermissionId → List PermissionId}
    {missing : PermissionId → PermissionId → RegistryError} :
    registry.checkEdges edges missing = .ok () ↔ ∀ id ∈ registry, ∀ target ∈ edges id, target ∈ registry := by
  simp only [checkEdges, forM_eq_ok_iff, mem_ids]
  refine forall₂_congr fun id _ => forall₂_congr fun target _ => ?_
  by_cases registered : target ∈ registry <;> simp [registered]

theorem validateResolution_eq_ok_iff :
    registry.validateResolution = .ok () ↔ ∀ id ∈ registry, registry.Resolvable id := by
  simp only [validateResolution, forM_eq_ok_iff, mem_ids, resolvable_iff]
  refine forall₂_congr fun id _ => ?_
  cases registry.resolveDependencies id <;> simp [discard, Functor.discard, Functor.mapConst, Except.map]

theorem Safe.mem_of_requires (safe : registry.Safe) (required : target ∈ registry.requirements id) :
    target ∈ registry := by
  obtain ⟨last, _, edge⟩ := TransGen.tail'_iff.mp required
  exact safe.dependencies last target edge

theorem Safe.mem_of_implied (safe : registry.Safe) {roots : Set PermissionId} (given : ∀ root ∈ roots, root ∈ registry)
    (implied : target ∈ registry.impliedBy roots) : target ∈ registry := by
  obtain ⟨root, member, path⟩ := implied
  rcases path.cases_tail with rfl | ⟨last, _, edge⟩
  · exact given _ member
  · exact safe.implications last target edge

theorem Safe.resolvable (safe : registry.Safe) (registered : id ∈ registry) : registry.Resolvable id where
  registered := registered
  requirements _ required := safe.mem_of_requires required
  acyclic := ⟨safe.acyclic id, fun target _ => safe.acyclic target⟩

theorem safe_iff :
    registry.Safe ↔
      ∀ id ∈ registry, registry.Resolvable id ∧ ∀ target ∈ registry.impliedBy {id}, target ∈ registry := by
  constructor
  · intro safe id registered
    refine ⟨safe.resolvable registered, fun target => safe.mem_of_implied ?_⟩
    intro root same
    obtain rfl : root = id := same
    exact registered
  · intro sound
    refine ⟨fun id target edge => ?_, fun id target edge => ?_, fun id cycle => ?_⟩
    · exact (sound id (mem_of_dependsOn edge)).1.requirements target (.single edge)
    · exact (sound id (mem_of_implies edge)).2 target ⟨id, rfl, .single edge⟩
    · exact (sound id (mem_of_requires cycle)).1.acyclic.1 cycle

theorem validateGraph_eq_ok_iff : registry.validateGraph = .ok () ↔ registry.Safe := by
  have stages : registry.validateGraph = .ok () ↔ registry.validateDependencies = .ok () ∧
      registry.validateImplications = .ok () ∧ registry.validateResolution = .ok () := by
    unfold validateGraph
    cases registry.validateDependencies with
    | error error => simp [bind, Except.bind]
    | ok _ => cases registry.validateImplications <;> simp [bind, Except.bind]
  rw [stages, validateDependencies, validateImplications, checkEdges_eq_ok_iff, checkEdges_eq_ok_iff,
    validateResolution_eq_ok_iff]
  constructor
  · intro stages
    obtain ⟨dependencies, implications, resolvable⟩ := stages
    exact ⟨fun id target edge => dependencies id (mem_of_dependsOn edge) target edge,
      fun id target edge => implications id (mem_of_implies edge) target edge,
      fun id cycle => (resolvable id (mem_of_requires cycle)).acyclic.1 cycle⟩
  · intro safe
    exact ⟨fun id _ => safe.dependencies id, fun id _ => safe.implications id, fun _ => safe.resolvable⟩

/-- Where one permission depends on another and that is all, there is nothing further to require. -/
theorem mem_requirements_iff_of_single {first second : PermissionId}
    (edges : ∀ {id target}, registry.DependsOn id target ↔ id = first ∧ target = second) (apart : second ≠ first) :
    target ∈ registry.requirements id ↔ id = first ∧ target = second := by
  constructor
  · intro path
    obtain ⟨next, edge, rest⟩ := TransGen.head'_iff.mp path
    obtain ⟨rfl, rfl⟩ := edges.mp edge
    rcases rest.cases_head with rfl | ⟨_, further, _⟩
    · exact ⟨rfl, rfl⟩
    · exact absurd (edges.mp further).1 apart
  · intro edge
    obtain ⟨rfl, rfl⟩ := edge
    exact .single (edges.mpr ⟨rfl, rfl⟩)

/-- Editing is of no use without reading, and includes it. -/
def editing : Registry :=
  (empty.insert { id := "read", moduleName := "docs" }).insert
    { id := "edit", moduleName := "docs", dependsOn := ["read"], implies := ["read"] }

theorem editing_edges (id : PermissionId) :
    editing.dependencies id = (if id = "edit" then ["read"] else []) ∧
      editing.implied id = if id = "edit" then ["read"] else [] := by
  unfold dependencies implied editing
  rw [find?_insert, find?_insert]
  by_cases isEdit : id = "edit"
  · simp [isEdit]
  · by_cases isRead : id = "read"
    · simp [isRead]
    · simp [Ne.symm isEdit, Ne.symm isRead, isEdit, find?, empty]

theorem editing_dependsOn_iff : editing.DependsOn id target ↔ id = "edit" ∧ target = "read" := by
  rw [DependsOn, (editing_edges id).1]
  split <;> simp [*]

theorem editing_implies_iff : editing.Implies id target ↔ id = "edit" ∧ target = "read" := by
  rw [Implies, (editing_edges id).2]
  split <;> simp [*]

theorem mem_of_editing_impliedBy {roots : Set PermissionId} (implied : target ∈ editing.impliedBy roots) :
    target ∈ roots ∨ target = "read" := by
  obtain ⟨root, given, path⟩ := implied
  rcases path.cases_tail with rfl | ⟨last, _, edge⟩
  · exact .inl given
  · exact .inr (editing_implies_iff.mp edge).2

theorem mem_editing_requirements_iff : target ∈ editing.requirements id ↔ id = "edit" ∧ target = "read" :=
  mem_requirements_iff_of_single editing_dependsOn_iff (by decide)

theorem editing_safe : editing.Safe where
  dependencies id target edge := by
    obtain ⟨rfl, rfl⟩ := editing_dependsOn_iff.mp edge
    simp [editing]
  implications id target edge := by
    obtain ⟨rfl, rfl⟩ := editing_implies_iff.mp edge
    simp [editing]
  acyclic id cycle := by
    obtain ⟨rfl, same⟩ := mem_editing_requirements_iff.mp cycle
    exact absurd same (by decide)

end AccessControl.Registry
