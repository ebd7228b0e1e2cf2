import AccessControl.Counting
import AccessControl.Registry.Basic

/-!
What a permission depends on, directly and through others. The walk follows dependencies depth first, in the
order in which each permission lists them, and keeps its path on a stack of its own, so a long chain needs no
deep recursion. Each step leaves fewer untouched permissions, or as many and less work on the path; hence the
walk ends on every registry, with or without cycles.
-/

namespace AccessControl

/-- A permission on the path, with those of its dependencies that have not been looked at. -/
structure Frame where
  permission : PermissionId
  ahead : List PermissionId

structure DependencyWalk where
  /-- The permissions between the origin and the one being visited, innermost first. -/
  path : List Frame
  onPath : PermissionSet
  finished : PermissionSet
  /-- The dependencies found so far, latest first. -/
  resolved : List PermissionId

namespace DependencyWalk

/-- The walk that is about to look at the first dependency of `origin`. -/
def start (registry : Registry) (origin : PermissionId) : DependencyWalk :=
  { path := [⟨origin, registry.dependencies origin⟩]
    onPath := {origin}
    finished := ∅
    resolved := [] }

/-- Leaves the permission being visited, all of whose dependencies are finished. The origin, the last to be
left, is no dependency of itself. -/
def leave (walk : DependencyWalk) (permission : PermissionId) (rest : List Frame) : DependencyWalk :=
  { path := rest
    onPath := walk.onPath.erase permission
    finished := walk.finished.insert permission
    resolved := if rest.isEmpty then walk.resolved else permission :: walk.resolved }

def enter (registry : Registry) (walk : DependencyWalk) (next : PermissionId) (path : List Frame) :
    DependencyWalk :=
  { walk with
    path := ⟨next, registry.dependencies next⟩ :: path
    onPath := walk.onPath.insert next }

/-- One step; nothing once the origin has been left. -/
def step (registry : Registry) (walk : DependencyWalk) : Except RegistryError (Option DependencyWalk) :=
  match walk.path with
  | [] => .ok none
  | ⟨permission, []⟩ :: rest => .ok (some (walk.leave permission rest))
  | ⟨permission, next :: ahead⟩ :: rest =>
    if next ∈ walk.onPath then .error (.circularDependency next)
    else if next ∈ walk.finished then .ok (some { walk with path := ⟨permission, ahead⟩ :: rest })
    else if next ∈ registry then .ok (some (walk.enter registry next (⟨permission, ahead⟩ :: rest)))
    else .error (.unknownPermission next)

/-- The registered permissions that the walk has neither finished nor on its path. -/
def untouched (registry : Registry) (walk : DependencyWalk) : List PermissionId :=
  registry.ids.filter fun id => id ∉ walk.onPath ∧ id ∉ walk.finished

/-- How many steps the path holds when nothing more is entered. -/
def remaining (walk : DependencyWalk) : Nat :=
  (walk.path.flatMap Frame.ahead).length + walk.path.length

def Precedes (registry : Registry) (after before : DependencyWalk) : Prop :=
  Prod.Lex (· < ·) (· < ·) ((after.untouched registry).length, after.remaining)
    ((before.untouched registry).length, before.remaining)

theorem leave_precedes {registry : Registry} {walk : DependencyWalk} {permission : PermissionId}
    {rest : List Frame} (top : walk.path = ⟨permission, []⟩ :: rest) :
    Precedes registry (walk.leave permission rest) walk := by
  have fewer : ((walk.leave permission rest).untouched registry).length ≤ (walk.untouched registry).length := by
    apply length_filter_le_of_imp
    intro id _ untouched
    simp only [leave, Std.ExtTreeSet.mem_erase, Std.ExtTreeSet.mem_insert, decide_eq_true_eq] at untouched ⊢
    grind
  have less : (walk.leave permission rest).remaining < walk.remaining := by
    simp only [remaining, leave, top, List.flatMap_cons, List.nil_append, List.length_cons]
    omega
  rcases Nat.lt_or_eq_of_le fewer with fewer | same
  · exact .left _ _ fewer
  · unfold Precedes
    rw [same]
    exact .right _ less

theorem enter_precedes {registry : Registry} {walk : DependencyWalk} {next : PermissionId} {path : List Frame}
    (registered : next ∈ registry) (offPath : next ∉ walk.onPath) (unfinished : next ∉ walk.finished) :
    Precedes registry (walk.enter registry next path) walk := by
  refine .left _ _ (length_filter_lt_of_imp (a := next) ?_ (by simpa using registered) ?_ ?_)
  · intro id _ untouched
    simp only [enter, Std.ExtTreeSet.mem_insert, decide_eq_true_eq] at untouched ⊢
    grind
  · simp [offPath, unfinished]
  · simp [enter]

theorem step_precedes {registry : Registry} {walk next : DependencyWalk}
    (stepped : walk.step registry = .ok (some next)) : Precedes registry next walk := by
  unfold step at stepped
  split at stepped
  · simp at stepped
  · next permission rest top =>
    simp only [Except.ok.injEq, Option.some.injEq] at stepped
    exact stepped ▸ leave_precedes top
  · next permission dependency ahead rest top =>
    split at stepped
    · simp at stepped
    · next offPath =>
      split at stepped
      · simp only [Except.ok.injEq, Option.some.injEq] at stepped
        subst stepped
        refine .right _ ?_
        simp only [remaining, top, List.flatMap_cons, List.length_append, List.length_cons]
        omega
      · next unfinished =>
        split at stepped
        · next registered =>
          simp only [Except.ok.injEq, Option.some.injEq] at stepped
          exact stepped ▸ enter_precedes registered offPath unfinished
        · simp at stepped

def run (registry : Registry) (walk : DependencyWalk) : Except RegistryError (List PermissionId) :=
  match _ : walk.step registry with
  | .error error => .error error
  | .ok none => .ok walk.resolved.reverse
  | .ok (some next) => run registry next
termination_by ((walk.untouched registry).length, walk.remaining)
decreasing_by exact step_precedes ‹_›

end DependencyWalk

/-- All that a permission depends on, each after its own dependencies and once. -/
def Registry.resolveDependencies (registry : Registry) (id : PermissionId) :
    Except RegistryError (List PermissionId) :=
  if id ∈ registry then (DependencyWalk.start registry id).run registry
  else .error (.unknownPermission id)

end AccessControl
