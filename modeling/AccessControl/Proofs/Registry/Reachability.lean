import Mathlib.Data.List.Nodup
import AccessControl.PermissionGraph
import AccessControl.Proofs.Registry.Closure
import AccessControl.Proofs.Registry.Registering
import AccessControl.Proofs.Registry.Resolution

/-!
What a search of a graph of permissions reaches is what its paths lead to, whatever the graph: it may have cycles, and
edges that lead nowhere. A registry made of a graph in normal form has the edges of the graph, so the walks of the
registry and the searches of the graph can be held against each other. They differ only where a walk fails.
-/

namespace AccessControl.PermissionGraph

open Relation

variable {graph : PermissionGraph} {edges : Permission → List PermissionId} {seen closure : PermissionSet}
  {pending ids : List PermissionId} {id target : PermissionId} {registry : Registry}

/-- The permission that bears the first id has an edge of that kind to the second. -/
def Leads (graph : PermissionGraph) (edges : Permission → List PermissionId) (id target : PermissionId) : Prop :=
  target ∈ graph.edgesFrom edges id

instance : Decidable (graph.Leads edges id target) :=
  inferInstanceAs (Decidable (target ∈ graph.edgesFrom edges id))

/-- What has been seen is pending, or its edges have been followed. -/
def Explored (graph : PermissionGraph) (edges : Permission → List PermissionId) (seen : PermissionSet)
    (pending : List PermissionId) : Prop :=
  ∀ id ∈ seen, id ∈ pending ∨ ∀ target, graph.Leads edges id target → target ∈ seen

theorem mem_fresh : target ∈ graph.fresh edges seen id ↔ graph.Leads edges id target ∧ target ∉ seen := by
  simp [fresh, Leads]

theorem mem_insertMany_fresh :
    target ∈ seen.insertMany (graph.fresh edges seen id) ↔ target ∈ seen ∨ graph.Leads edges id target := by
  rw [Std.ExtTreeSet.mem_insertMany_list, List.contains_iff_mem, mem_fresh]
  grind

theorem Explored.step (explored : graph.Explored edges seen (id :: pending)) :
    graph.Explored edges (seen.insertMany (graph.fresh edges seen id)) (graph.fresh edges seen id ++ pending) := by
  intro node member
  by_cases old : node ∈ seen
  · rcases explored node old with waiting | followed
    · rcases List.mem_cons.mp waiting with rfl | waiting
      · exact .inr fun target edge => mem_insertMany_fresh.mpr (.inr edge)
      · exact .inl (List.mem_append_right _ waiting)
    · exact .inr fun target edge => mem_insertMany_fresh.mpr (.inl (followed target edge))
  · have edge := (mem_insertMany_fresh.mp member).resolve_left old
    exact .inl (List.mem_append_left _ (mem_fresh.mpr ⟨edge, old⟩))

/-- A path from a node that has been seen leaves what has been seen at a pending node, if it leaves it at all. -/
theorem Explored.mem_or_pending (explored : graph.Explored edges seen pending) (member : id ∈ seen)
    (path : ReflTransGen (graph.Leads edges) id target) :
    target ∈ seen ∨ ∃ node ∈ pending, TransGen (graph.Leads edges) node target := by
  induction path with
  | refl => exact .inl member
  | tail _ edge ih =>
    rcases ih with visited | ⟨node, waiting, path⟩
    · rcases explored _ visited with waiting | followed
      · exact .inr ⟨_, waiting, .single edge⟩
      · exact .inl (followed _ edge)
    · exact .inr ⟨node, waiting, path.tail edge⟩

theorem mem_reach_iff (explored : graph.Explored edges seen pending) :
    target ∈ graph.reach edges seen pending ↔
      target ∈ seen ∨ ∃ node ∈ pending, TransGen (graph.Leads edges) node target := by
  induction seen, pending using reach.induct graph edges with
  | case1 seen => simp [reach]
  | case2 seen id pending ih =>
    rw [reach, ih explored.step]
    constructor
    · intro reached
      rcases reached with member | ⟨node, waiting, path⟩
      · rcases mem_insertMany_fresh.mp member with old | edge
        · exact .inl old
        · exact .inr ⟨id, List.mem_cons_self, .single edge⟩
      rcases List.mem_append.mp waiting with fresh | waiting
      · exact .inr ⟨id, List.mem_cons_self, .head (mem_fresh.mp fresh).1 path⟩
      · exact .inr ⟨node, List.mem_cons_of_mem _ waiting, path⟩
    · intro reached
      rcases reached with old | ⟨node, waiting, path⟩
      · exact .inl (mem_insertMany_fresh.mpr (.inl old))
      rcases List.mem_cons.mp waiting with rfl | waiting
      · -- The path enters what has now been seen by its first edge, and from there the invariant carries it on.
        obtain ⟨next, edge, rest⟩ := TransGen.head'_iff.mp path
        exact explored.step.mem_or_pending (mem_insertMany_fresh.mpr (.inr edge)) rest
      · exact .inr ⟨node, List.mem_append_right _ waiting, path⟩

theorem mem_reach_single : target ∈ graph.reach edges ∅ [id] ↔ TransGen (graph.Leads edges) id target := by
  rw [mem_reach_iff (by simp [Explored])]
  simp

theorem mem_reachableDependencies_iff :
    target ∈ graph.reachableDependencies id ↔ TransGen (graph.Leads Permission.dependsOn) id target :=
  mem_reach_single

theorem mem_foldl_union_iff {start : PermissionSet} {reached : PermissionId → PermissionSet} :
    target ∈ ids.foldl (fun found id => found ∪ reached id) start ↔
      target ∈ start ∨ ∃ id ∈ ids, target ∈ reached id := by
  induction ids generalizing start with
  | nil => simp
  | cons first rest ih =>
    rw [List.foldl_cons, ih, Std.ExtTreeSet.mem_union_iff, or_assoc]
    simp

theorem mem_reachableImplied_iff :
    target ∈ graph.reachableImplied ids ↔ ∃ id ∈ ids, ReflTransGen (graph.Leads Permission.implies) id target := by
  simp only [reachableImplied, mem_foldl_union_iff, mem_reach_single, Std.ExtTreeSet.mem_ofList,
    List.contains_iff_mem]
  constructor
  · intro reached
    rcases reached with given | ⟨id, given, path⟩
    · exact ⟨target, given, .refl⟩
    · exact ⟨id, given, path.to_reflTransGen⟩
  · intro reached
    obtain ⟨id, given, path⟩ := reached
    rcases reflTransGen_iff_eq_or_transGen.mp path with rfl | path
    · exact .inl given
    · exact .inr ⟨id, given, path⟩

theorem isClosed_iff :
    graph.isClosed edges closure = true ↔ ∀ id ∈ closure, ∀ target, graph.Leads edges id target → target ∈ closure := by
  simp [isClosed, Leads]

/-- The reference is right about a graph: dependencies are what paths of one edge or more lead to, and the implied
permissions are the least set with the given ones from which no edge leads out. -/
structure ReachesExactly (graph : PermissionGraph) : Prop where
  dependencies : ∀ id target,
    target ∈ graph.reachableDependencies id ↔ TransGen (graph.Leads Permission.dependsOn) id target
  given : ∀ ids, ∀ id ∈ ids, id ∈ graph.reachableImplied ids
  closed : ∀ ids, graph.isClosed Permission.implies (graph.reachableImplied ids) = true
  least : ∀ ids closure, (∀ id ∈ ids, id ∈ closure) → graph.isClosed Permission.implies closure = true →
    ∀ target ∈ graph.reachableImplied ids, target ∈ closure

theorem reachesExactly (graph : PermissionGraph) : graph.ReachesExactly where
  dependencies _ _ := mem_reachableDependencies_iff
  given ids id member := mem_reachableImplied_iff.mpr ⟨id, member, .refl⟩
  closed ids := by
    refine isClosed_iff.mpr fun id member target edge => ?_
    obtain ⟨root, given, path⟩ := mem_reachableImplied_iff.mp member
    exact mem_reachableImplied_iff.mpr ⟨root, given, path.tail edge⟩
  least ids closure given closed target member := by
    obtain ⟨root, among, path⟩ := mem_reachableImplied_iff.mp member
    induction path with
    | refl => exact given root among
    | tail path edge ih =>
      have before := mem_reachableImplied_iff.mpr ⟨root, among, path⟩
      exact isClosed_iff.mp closed _ (ih before) _ edge

/-- Registering any of the permissions leaves its id and its edges as they are. -/
def Normal (graph : PermissionGraph) : Prop :=
  ∀ permission ∈ graph.permissions, permission.normalize = permission

instance (graph : PermissionGraph) : Decidable graph.Normal :=
  inferInstanceAs (Decidable (∀ permission ∈ graph.permissions, permission.normalize = permission))

theorem registry_adds (ready : graph.registry = .ok registry) : Registry.empty.Adds graph.permissions registry := by
  unfold PermissionGraph.registry at ready
  have batch := Registry.empty.registerAll_outcome graph.permissions
  generalize (Registration.registerAll graph.permissions).perform Registry.empty = outcome at ready batch
  cases batch with
  | all adds => cases ready; exact adds
  | stopped _ _ _ => cases ready

theorem find?_eq_some_iff (distinct : graph.ids.Nodup) {permission : Permission} :
    graph.find? id = some permission ↔ permission ∈ graph.permissions ∧ permission.id = id := by
  constructor
  · intro found
    exact ⟨List.mem_of_find?_eq_some found, by simpa using List.find?_some found⟩
  · intro bears
    obtain ⟨member, rfl⟩ := bears
    cases found : graph.find? permission.id with
    | none => simpa using List.find?_eq_none.mp found permission member
    | some first =>
      have same : first.id = permission.id := by simpa using List.find?_some found
      rw [List.inj_on_of_nodup_map distinct (List.mem_of_find?_eq_some found) member same]

/-- What is registered is what the graph holds. -/
theorem find?_registry (normal : graph.Normal) (ready : graph.registry = .ok registry) (id : PermissionId) :
    registry.find? id = graph.find? id := by
  have adds := registry_adds ready
  have distinct : graph.ids.Nodup := by
    have same : (graph.permissions.map fun given => given.normalize.id) = graph.ids :=
      List.map_congr_left fun given member => congrArg Permission.id (normal given member)
    exact same ▸ adds.distinct
  refine Option.ext fun permission => ?_
  rw [adds.found, find?_eq_some_iff distinct]
  simp only [Registry.find?, Registry.empty, Std.ExtTreeMap.getElem?_empty, reduceCtorEq, false_or]
  constructor
  · intro added
    obtain ⟨given, member, rfl, bears⟩ := added
    rw [normal given member] at bears ⊢
    exact ⟨member, bears⟩
  · intro bears
    exact ⟨permission, bears.1, normal permission bears.1, bears.2⟩

theorem mem_registry_iff (normal : graph.Normal) (ready : graph.registry = .ok registry) :
    id ∈ registry ↔ id ∈ graph.ids := by
  rw [← Registry.find?_isSome, find?_registry normal ready, find?, List.find?_isSome, ids, List.mem_map]
  simp

theorem dependsOn_eq_leads (normal : graph.Normal) (ready : graph.registry = .ok registry) :
    registry.DependsOn = graph.Leads Permission.dependsOn := by
  funext id target
  rw [Registry.DependsOn, Registry.dependencies, find?_registry normal ready]
  rfl

theorem implies_eq_leads (normal : graph.Normal) (ready : graph.registry = .ok registry) :
    registry.Implies = graph.Leads Permission.implies := by
  funext id target
  rw [Registry.Implies, Registry.implied, find?_registry normal ready]
  rfl

theorem mem_reachableDependencies_iff_requirements (normal : graph.Normal) (ready : graph.registry = .ok registry) :
    target ∈ graph.reachableDependencies id ↔ target ∈ registry.requirements id := by
  rw [mem_reachableDependencies_iff, ← dependsOn_eq_leads normal ready]
  rfl

theorem mem_reachableImplied_iff_impliedBy (normal : graph.Normal) (ready : graph.registry = .ok registry) :
    target ∈ graph.reachableImplied ids ↔ target ∈ registry.impliedBy {id | id ∈ ids} := by
  rw [mem_reachableImplied_iff, ← implies_eq_leads normal ready]
  rfl

/-- The walks of the registry succeed just where the searches of the graph find neither an id that no permission bears
nor, for dependencies, a cycle; where they succeed they find the same. -/
structure AgreesWith (graph : PermissionGraph) (registry : Registry) : Prop where
  resolvable : ∀ id ∈ graph.ids, (∃ list, registry.resolveDependencies id = .ok list) ↔
    (∀ target ∈ graph.reachableDependencies id, target ∈ graph.ids) ∧
      ∀ node, node = id ∨ node ∈ graph.reachableDependencies id → node ∉ graph.reachableDependencies node
  resolved : ∀ id ∈ graph.ids, ∀ list, registry.resolveDependencies id = .ok list →
    (.ofList list : PermissionSet) = graph.reachableDependencies id ∧
      graph.isClosed Permission.dependsOn ((.ofList list : PermissionSet).insert id) = true
  expandable : ∀ ids, (∃ expanded, registry.expandImplied ids = .ok expanded) ↔
    ∀ target ∈ graph.reachableImplied ids, target ∈ graph.ids
  expanded : ∀ ids expanded, registry.expandImplied ids = .ok expanded → expanded = graph.reachableImplied ids

theorem isClosed_insert_reachableDependencies (graph : PermissionGraph) (id : PermissionId) :
    graph.isClosed Permission.dependsOn ((graph.reachableDependencies id).insert id) = true := by
  refine isClosed_iff.mpr fun node member target edge => ?_
  simp only [Std.ExtTreeSet.mem_insert, Std.LawfulEqCmp.compare_eq_iff_eq, mem_reachableDependencies_iff] at member ⊢
  rcases member with rfl | path
  · exact .inr (.single edge)
  · exact .inr (path.tail edge)

theorem resolvable_iff_reachable (normal : graph.Normal) (ready : graph.registry = .ok registry)
    (among : id ∈ graph.ids) :
    registry.Resolvable id ↔ (∀ target ∈ graph.reachableDependencies id, target ∈ graph.ids) ∧
      ∀ node, node = id ∨ node ∈ graph.reachableDependencies id → node ∉ graph.reachableDependencies node := by
  simp only [← mem_registry_iff normal ready, mem_reachableDependencies_iff_requirements normal ready,
    forall_eq_or_imp] at among ⊢
  constructor
  · intro resolvable
    exact ⟨resolvable.requirements, resolvable.acyclic⟩
  · intro sound
    exact ⟨among, sound.1, sound.2⟩

theorem agreesWith_registry (normal : graph.Normal) (ready : graph.registry = .ok registry) :
    graph.AgreesWith registry where
  resolvable id among := by
    rw [← Registry.resolvable_iff, resolvable_iff_reachable normal ready among]
  resolved id _ list found := by
    have same : (.ofList list : PermissionSet) = graph.reachableDependencies id := by
      refine Std.ExtTreeSet.ext_mem fun target => ?_
      rw [mem_reachableDependencies_iff_requirements normal ready, Std.ExtTreeSet.mem_ofList, List.contains_iff_mem,
        (Registry.resolveDependencies_eq_ok found).2.1]
    exact ⟨same, same ▸ graph.isClosed_insert_reachableDependencies id⟩
  expandable ids := by
    simp only [Registry.expandable_iff, mem_reachableImplied_iff_impliedBy normal ready, mem_registry_iff normal ready]
  expanded ids expanded found := by
    refine Std.ExtTreeSet.ext_mem fun target => ?_
    rw [mem_reachableImplied_iff_impliedBy normal ready, (Registry.expandImplied_eq_ok found).1]

/-- The reference is right about every graph, and if a graph in normal form can be registered, the registry agrees
with it. -/
theorem reference_agrees (graph : PermissionGraph) :
    graph.ReachesExactly ∧
      (graph.Normal → ∀ registry, graph.registry = .ok registry → graph.AgreesWith registry) :=
  ⟨graph.reachesExactly, fun normal _ ready => agreesWith_registry normal ready⟩

/-- Editing needs reading. Drafts and reviews need and imply each other, and a review implies what does not exist. -/
def tangled : PermissionGraph :=
  ⟨[{ id := "read", moduleName := "docs" },
    { id := "edit", moduleName := "docs", dependsOn := ["read"], implies := ["read"] },
    { id := "draft", moduleName := "docs", dependsOn := ["review"], implies := ["review"] },
    { id := "review", moduleName := "docs", dependsOn := ["draft"], implies := ["draft", "publish"] }]⟩

theorem tangled_read_ends : target ∉ tangled.reachableDependencies "read" := by
  intro reached
  obtain ⟨_, edge, _⟩ := TransGen.head'_iff.mp (mem_reachableDependencies_iff.mp reached)
  exact List.not_mem_nil edge

theorem tangled_edit_reads : target ∈ tangled.reachableDependencies "edit" ↔ target = "read" := by
  rw [mem_reachableDependencies_iff]
  constructor
  · intro path
    obtain ⟨next, edge, rest⟩ := TransGen.head'_iff.mp path
    obtain rfl : next = "read" := List.mem_singleton.mp edge
    rcases reflTransGen_iff_eq_or_transGen.mp rest with same | further
    · exact same
    · exact absurd (mem_reachableDependencies_iff.mpr further) tangled_read_ends
  · intro same
    exact same ▸ .single (by decide)

theorem tangled_resolves_edit :
    ∃ registry, tangled.registry = .ok registry ∧ tangled.AgreesWith registry ∧
      (∃ list, registry.resolveDependencies "edit" = .ok list ∧ ∀ target, target ∈ list ↔ target = "read") ∧
      (¬ ∃ list, registry.resolveDependencies "draft" = .ok list) ∧
      ¬ ∃ expanded, registry.expandImplied ["draft"] = .ok expanded := by
  obtain ⟨exact, agrees⟩ := tangled.reference_agrees
  obtain ⟨registry, ready⟩ : ∃ registry, tangled.registry = .ok registry := ⟨_, rfl⟩
  have agrees := agrees (by decide) registry ready
  refine ⟨registry, ready, agrees, ?_, fun resolved => ?_, fun expanded => ?_⟩
  · have found : ∃ list, registry.resolveDependencies "edit" = .ok list := by
      refine (agrees.resolvable "edit" (by decide)).mpr ⟨fun target reached => ?_, fun node visited => ?_⟩
      · exact tangled_edit_reads.mp reached ▸ by decide
      rcases visited with rfl | reached
      · exact fun cycle => absurd (tangled_edit_reads.mp cycle) (by decide)
      · exact tangled_edit_reads.mp reached ▸ tangled_read_ends
    obtain ⟨list, resolved⟩ := found
    refine ⟨list, resolved, fun target => ?_⟩
    rw [← tangled_edit_reads, ← (agrees.resolved "edit" (by decide) list resolved).1, Std.ExtTreeSet.mem_ofList,
      List.contains_iff_mem]
  · have acyclic := ((agrees.resolvable "draft" (by decide)).mp resolved).2 "draft" (.inl rfl)
    have toReview : TransGen (tangled.Leads Permission.dependsOn) "draft" "review" := .single (by decide)
    exact acyclic ((exact.dependencies "draft" "draft").mpr (toReview.tail (by decide)))
  · have closed := isClosed_iff.mp (exact.closed ["draft"])
    have review := closed "draft" (exact.given _ _ (by decide)) "review" (by decide)
    have publish := closed "review" review "publish" (by decide)
    exact absurd ((agrees.expandable ["draft"]).mp expanded "publish" publish) (by decide)

end AccessControl.PermissionGraph
