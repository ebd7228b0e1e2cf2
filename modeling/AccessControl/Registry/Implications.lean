import AccessControl.Counting
import AccessControl.Registry.Basic

/-!
The permissions that a grant of some permissions amounts to: those themselves and whatever they imply, directly
or through others. Each registered permission is expanded at most once, however the implications run. A grant
of a permission that is not registered, or that implies one, is an error and not an empty grant.
-/

namespace AccessControl

structure Expansion where
  expanded : PermissionSet
  /-- The permissions found whose implications have not been looked at, latest first. -/
  pending : List PermissionId

namespace Expansion

def start : Expansion := ⟨∅, []⟩

def add (registry : Registry) (expansion : Expansion) (id : PermissionId) : Except RegistryError Expansion :=
  if id ∈ registry then
    if id ∈ expansion.expanded then .ok expansion
    else .ok ⟨expansion.expanded.insert id, id :: expansion.pending⟩
  else .error (.unknownPermission id)

/-- Looks at the implications of the permission found last; nothing when none is pending. -/
def step (registry : Registry) (expansion : Expansion) : Except RegistryError (Option Expansion) :=
  match expansion.pending with
  | [] => .ok none
  | id :: pending =>
    some <$> (registry.implied id).foldlM (add registry) { expansion with pending := pending }

/-- The registered permissions that have not been found. -/
def unfound (registry : Registry) (expansion : Expansion) : List PermissionId :=
  registry.ids.filter fun id => id ∉ expansion.expanded

/-- Either more has been found, or nothing has been found and no more is pending than before. -/
def Advances (registry : Registry) (before after : Expansion) : Prop :=
  (after.unfound registry).length < (before.unfound registry).length ∨ after = before

theorem add_advances {registry : Registry} {expansion after : Expansion} {id : PermissionId}
    (added : expansion.add registry id = .ok after) : Advances registry expansion after := by
  unfold add at added
  split at added
  · next registered =>
    split at added
    · simp only [Except.ok.injEq] at added
      exact .inr added.symm
    · next unfound =>
      simp only [Except.ok.injEq] at added
      subst added
      refine .inl (length_filter_lt_of_imp (a := id) ?_ (by simpa using registered) ?_ ?_)
      · intro other _ notFound
        simp only [Std.ExtTreeSet.mem_insert, decide_eq_true_eq] at notFound ⊢
        grind
      · simpa using unfound
      · simp
  · simp at added

theorem foldlM_add_advances {registry : Registry} {ids : List PermissionId} {expansion after : Expansion}
    (added : ids.foldlM (add registry) expansion = .ok after) : Advances registry expansion after := by
  induction ids generalizing expansion with
  | nil =>
    simp only [List.foldlM_nil, pure, Except.pure, Except.ok.injEq] at added
    exact .inr added.symm
  | cons id ids ih =>
    simp only [List.foldlM_cons, bind, Except.bind] at added
    split at added
    · simp at added
    · next between first =>
      rcases ih added with fewer | same
      · rcases add_advances first with fewerFirst | sameFirst
        · exact .inl (Nat.lt_trans fewer fewerFirst)
        · exact .inl (sameFirst ▸ fewer)
      · exact same ▸ add_advances first

theorem step_decreases {registry : Registry} {expansion next : Expansion}
    (stepped : expansion.step registry = .ok (some next)) :
    Prod.Lex (· < ·) (· < ·) ((next.unfound registry).length, next.pending.length)
      ((expansion.unfound registry).length, expansion.pending.length) := by
  unfold step at stepped
  split at stepped
  · simp at stepped
  · next id pending top =>
    cases added : (registry.implied id).foldlM (add registry) { expansion with pending := pending } with
    | error error => simp [added, Functor.map, Except.map] at stepped
    | ok after =>
      simp only [added, Functor.map, Except.map, Except.ok.injEq, Option.some.injEq] at stepped
      subst stepped
      rcases foldlM_add_advances added with fewer | same
      · exact .left _ _ fewer
      · subst same
        refine .right _ ?_
        simp [top]

def run (registry : Registry) (expansion : Expansion) : Except RegistryError Expansion :=
  match _ : expansion.step registry with
  | .error error => .error error
  | .ok none => .ok expansion
  | .ok (some next) => run registry next
termination_by ((expansion.unfound registry).length, expansion.pending.length)
decreasing_by exact step_decreases ‹_›

def close (registry : Registry) (expansion : Expansion) (id : PermissionId) : Except RegistryError Expansion := do
  let added ← expansion.add registry id
  added.run registry

end Expansion

/-- The permissions in the list and all that they imply. -/
def Registry.expandImplied (registry : Registry) (ids : List PermissionId) :
    Except RegistryError PermissionSet := do
  let expansion ← ids.foldlM (Expansion.close registry) .start
  return expansion.expanded

end AccessControl
