import AccessControl.ResourceGrant.Basic
import AccessControl.Store.Error
import AccessControl.Transition

/-!
What a store of users, roles, teams and grants can be asked to change and to tell. The changes are data, so
that one sequence of them can be run on any store.
-/

namespace AccessControl

inductive Write where
  /-- Creates a user, or changes the provider of an existing one. -/
  | addUser (user : UserId) (provider : AuthProvider)
  | setRoot (user : UserId) (isRoot : Bool)
  /-- Creates a role, or replaces the permissions of an existing one. -/
  | addRole (role : RoleId) (permissions : List PermissionId)
  | addRolePermission (role : RoleId) (permission : PermissionId)
  | assignRole (user : UserId) (role : RoleId)
  /-- Creates a team, or renames an existing one. -/
  | addTeam (team : TeamId) (name : String)
  | addTeamMember (team : TeamId) (user : UserId)
  | assignTeamRole (team : TeamId) (role : RoleId)
  /-- Adds a grant, or replaces the expiry of the one with that key. -/
  | grant (grant : ResourceGrant)
  | revoke (key : GrantKey)
  | setVerification (user : UserId) (verifiedAt : Option Timestamp)
  | requireVerification (required : Bool)
  /-- Writes permissions into the catalog, over those of the same ids. -/
  | upsertPermissions (permissions : List Permission)

inductive Receipt where
  | done
  | count (number : Nat)
deriving DecidableEq

/-- Steps that change a store of type `σ`. A step that fails leaves what was done before it. -/
abbrev Action := Transition StoreError

namespace Action

def answering (action : Action σ Unit) (answer : α) : Action σ α := do
  action
  return answer

theorem perform_answering (action : Action σ Unit) (answer : α) (store : σ) :
    (action.answering answer).perform store =
      ((action.perform store).1.map fun _ => answer, (action.perform store).2) := by
  rw [answering, Transition.perform_bind]
  obtain ⟨outcome, after⟩ := action.perform store
  cases outcome <;> rfl

theorem map_answering (action : Action σ Unit) (answer : α) (apply : α → β) :
    (do return apply (← action.answering answer)) = action.answering (apply answer) := by
  simp only [answering, bind_assoc, pure_bind]

end Action

class Store (σ : Type) where
  empty : σ
  /-- Writes permissions into the catalog, and answers how many were written. -/
  upsertPermissions : List Permission → Action σ Nat
  write : Write → Action σ Receipt
  write_upsertPermissions : ∀ permissions,
    write (.upsertPermissions permissions) = do return .count (← upsertPermissions permissions)
  loadPrincipal : σ → UserId → Except StoreError (Option Principal)
  resourceGrants : σ → GrantQuery → Except StoreError (List ResourceGrant)
  verification : σ → UserId → Except StoreError (Option Verification)
  verificationRequired : σ → Except StoreError Bool
  listPermissions : σ → Except StoreError (List Permission)

end AccessControl
