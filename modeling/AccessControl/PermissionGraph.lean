import AccessControl.Counting
import AccessControl.Registry.Basic

/-!
Graphs of permissions that need not be registered, nor well formed. Reachability here follows the edges as they
stand and reports no errors; a target that is no permission of the graph has no edges of its own.
-/

namespace AccessControl

structure PermissionGraph where
  permissions : List Permission

namespace PermissionGraph

def ids (graph : PermissionGraph) : List PermissionId :=
  graph.permissions.map Permission.id

def find? (graph : PermissionGraph) (id : PermissionId) : Option Permission :=
  graph.permissions.find? fun permission => permission.id = id

def registry (graph : PermissionGraph) : Except RegistryError Registry :=
  match (Registration.registerAll graph.permissions).perform Registry.empty with
  | (.ok (), registry) => .ok registry
  | (.error error, _) => .error error

def edgesFrom (graph : PermissionGraph) (edges : Permission → List PermissionId) (id : PermissionId) :
    List PermissionId :=
  ((graph.find? id).map edges).getD []

def targets (graph : PermissionGraph) (edges : Permission → List PermissionId) : List PermissionId :=
  graph.permissions.flatMap edges

theorem mem_targets_of_mem_edgesFrom {graph : PermissionGraph} {edges : Permission → List PermissionId}
    {id target : PermissionId} (edge : target ∈ graph.edgesFrom edges id) : target ∈ graph.targets edges := by
  unfold edgesFrom at edge
  cases found : graph.find? id with
  | none => simp [found] at edge
  | some permission =>
    simp only [found, Option.map_some, Option.getD_some] at edge
    exact List.mem_flatMap.mpr ⟨permission, List.mem_of_find?_eq_some found, edge⟩

/-- The targets of the edges that leave a node, as far as they have not been seen. -/
def fresh (graph : PermissionGraph) (edges : Permission → List PermissionId) (seen : PermissionSet)
    (id : PermissionId) : List PermissionId :=
  (graph.edgesFrom edges id).filter fun target => target ∉ seen

/-- Adds to `seen` all that is reached from the pending ids by at least one edge. -/
def reach (graph : PermissionGraph) (edges : Permission → List PermissionId) (seen : PermissionSet)
    (pending : List PermissionId) : PermissionSet :=
  match pending with
  | [] => seen
  | id :: pending =>
    reach graph edges (seen.insertMany (graph.fresh edges seen id)) (graph.fresh edges seen id ++ pending)
termination_by (((graph.targets edges).filter fun target => target ∉ seen).length, pending.length)
decreasing_by
  cases next : graph.fresh edges seen id with
  | nil =>
    have same : seen.insertMany ([] : List PermissionId) = seen :=
      Std.ExtTreeSet.ext_mem (by simp)
    rw [same]
    exact .right _ (by simp)
  | cons first others =>
    obtain ⟨edge, unseen⟩ := List.mem_filter.mp (next ▸ List.mem_cons_self : first ∈ graph.fresh edges seen id)
    refine .left _ _ (length_filter_lt_of_imp (a := first) ?_ (mem_targets_of_mem_edgesFrom edge) unseen ?_)
    · intro target _ notSeen
      simp only [Std.ExtTreeSet.mem_insertMany_list, decide_eq_true_eq] at notSeen ⊢
      exact fun member => notSeen (.inl member)
    · simp [Std.ExtTreeSet.mem_insertMany_list]

/-- What a permission depends on, directly or through others. It is among them only if it lies on a cycle. -/
def reachableDependencies (graph : PermissionGraph) (id : PermissionId) : PermissionSet :=
  graph.reach Permission.dependsOn ∅ [id]

/-- The given ids and all that they imply, directly or through others. -/
def reachableImplied (graph : PermissionGraph) (ids : List PermissionId) : PermissionSet :=
  ids.foldl (fun reached id => reached ∪ graph.reach Permission.implies ∅ [id]) (.ofList ids)

/-- Whether no edge of that kind leads from a permission whose id is in the set to an id outside it. -/
def isClosed (graph : PermissionGraph) (edges : Permission → List PermissionId) (ids : PermissionSet) : Bool :=
  ids.toList.all fun id => (graph.edgesFrom edges id).all fun target => target ∈ ids

/-- The id of the node with that number in a generated graph. -/
def nodeId (number : Nat) : PermissionId := "gen.p" ++ toString number

/-- A chain of permissions named by number: each has an edge of one kind, made by `link`, to the one after it. -/
def chain (name moduleName : String) (length : Nat) (link : List PermissionId → Permission → Permission) :
    PermissionGraph :=
  ⟨(List.range length).map fun number =>
    let next := if number + 1 < length then [name ++ toString (number + 1)] else []
    link next { id := name ++ toString number, moduleName }⟩

end PermissionGraph

end AccessControl
