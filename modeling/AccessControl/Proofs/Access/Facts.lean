import Mathlib.Data.Set.Basic
import AccessControl.Proofs.Access.Settling
import AccessControl.Proofs.Store.Grants

/-!
What a store tells, whichever store it is and however long its reads take. All reads succeed but for queries about more
teams than the store can take. Both stores answer at once, and of the grants that they hold they give just those that a
query asks for.
-/

namespace AccessControl

/-- The answers of a store, with all the grants on resources that it holds. -/
structure StoreFacts where
  principal : UserId → Option Principal
  verification : UserId → Option Verification
  verificationRequired : Bool
  grants : List ResourceGrant
  grantsFor : GrantQuery → List ResourceGrant
  mem_grantsFor : ∀ query grant, grant ∈ grantsFor query ↔ grant ∈ grants ∧ query.isMatch grant = true
  /-- Why the grants of these teams cannot be asked for, if they cannot. -/
  refusal : List TeamId → Option StoreError

/-- The answer to a query is what it finds, unless it is refused for the teams that it names. -/
def StoreFacts.resourceGrants (facts : StoreFacts) (query : GrantQuery) : Except StoreError (List ResourceGrant) :=
  match facts.refusal query.teamIds with
  | some error => .error error
  | none => .ok (facts.grantsFor query)

theorem StoreFacts.resourceGrants_congr {facts others : StoreFacts} {query : GrantQuery}
    (refusal : facts.refusal query.teamIds = others.refusal query.teamIds)
    (grantsFor : facts.grantsFor query = others.grantsFor query) :
    facts.resourceGrants query = others.resourceGrants query := by
  rw [resourceGrants, resourceGrants, refusal, grantsFor]

/-- How long each read takes at most. -/
structure ReadTimes where
  principal : Duration
  resourceGrants : Duration
  verification : Duration
  verificationRequired : Duration

namespace ReadTimes

def none : ReadTimes := ⟨.zero, .zero, .zero, .zero⟩

def total (times : ReadTimes) : Duration :=
  times.principal + (times.verificationRequired + (times.verification + times.resourceGrants))

end ReadTimes

structure GrantSource.Tells (source : GrantSource) (facts : StoreFacts) (times : ReadTimes) : Prop where
  principal : ∀ user, (source.principal user).Settles (.ok (facts.principal user)) times.principal
  resourceGrants : ∀ query,
    (source.resourceGrants query).Settles (facts.resourceGrants query) times.resourceGrants
  verification : ∀ user, (source.verification user).Settles (.ok (facts.verification user)) times.verification
  verificationRequired :
    source.verificationRequired.Settles (.ok facts.verificationRequired) times.verificationRequired

/-- What every read of a store answers. -/
structure Store.Gives [Store σ] (store : σ) (facts : StoreFacts) : Prop where
  principal : ∀ user, loadPrincipal store user = .ok (facts.principal user)
  resourceGrants : ∀ query, resourceGrants store query = facts.resourceGrants query
  verification : ∀ user, verification store user = .ok (facts.verification user)
  verificationRequired : verificationRequired store = .ok facts.verificationRequired

theorem Store.Gives.tells [Store σ] {store : σ} {facts : StoreFacts} (gives : Gives store facts) :
    (source store).Tells facts .none where
  principal user := gives.principal user ▸ Transition.settles_ofExcept
  resourceGrants query := gives.resourceGrants query ▸ Transition.settles_ofExcept
  verification user := gives.verification user ▸ Transition.settles_ofExcept
  verificationRequired := gives.verificationRequired ▸ Transition.settles_ofExcept

def MemoryStore.facts (store : MemoryStore) : StoreFacts where
  principal := store.loadPrincipal
  verification user := store.verifications[user]?
  verificationRequired := store.verificationRequired
  grants := store.grants
  grantsFor := store.resourceGrants
  mem_grantsFor query grant := by simp [resourceGrants]
  refusal _ := none

theorem MemoryStore.gives (store : MemoryStore) : Store.Gives store store.facts where
  principal _ := rfl
  resourceGrants _ := rfl
  verification _ := rfl
  verificationRequired := rfl

theorem MemoryStore.source_tells (store : MemoryStore) : (Store.source store).Tells store.facts .none :=
  store.gives.tells

def Database.facts (tables : Database) : StoreFacts where
  principal := tables.loadPrincipal
  verification := tables.verification
  verificationRequired := tables.verificationRequired
  grants := tables.grants
  grantsFor := tables.grantsFor
  mem_grantsFor _ _ := mem_grantsFor
  refusal := refusal

theorem Database.gives (tables : Database) : Store.Gives tables tables.facts where
  principal _ := rfl
  resourceGrants _ := rfl
  verification _ := rfl
  verificationRequired := rfl

end AccessControl
