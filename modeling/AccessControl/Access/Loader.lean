import AccessControl.Access.UserGrants
import AccessControl.Duration
import AccessControl.Registry.Implications
import AccessControl.Store.Basic

/-!
Making a user's grants from what a source tells: the roles of the user and of the user's teams, and on one resource also
the grants there. A source can be a store, whose reads take no time here, or anything else that answers them, late or with
a failure.
-/

namespace AccessControl

/-- A read of a store; the state is the time that has passed. -/
abbrev Reading := Transition StoreError Duration

structure GrantSource where
  principal : UserId → Reading (Option Principal)
  resourceGrants : GrantQuery → Reading (List ResourceGrant)
  verification : UserId → Reading (Option Verification)
  verificationRequired : Reading Bool

def Store.source [Store σ] (store : σ) : GrantSource where
  principal user := .ofExcept (loadPrincipal store user)
  resourceGrants query := .ofExcept (Store.resourceGrants store query)
  verification user := .ofExcept (Store.verification store user)
  verificationRequired := .ofExcept (Store.verificationRequired store)

inductive LoadError where
  | userNotFound (user : UserId)
  | store (error : StoreError)
  | registry (error : RegistryError)
deriving DecidableEq

def LoadError.message : LoadError → String
  | userNotFound user => "user not found: " ++ user
  | store error => "store error: " ++ error.message
  | registry error => "core error: " ++ error.message

abbrev Loading := Transition LoadError Duration

def Reading.load (reading : Reading α) : Loading α :=
  reading.adapt LoadError.store

structure Loader where
  registry : Registry
  source : GrantSource
  /-- Whether a user who has yet to verify an email address is denied everything. -/
  enforceVerification : Bool := true

namespace Loader

def expand (loader : Loader) (permissions : List PermissionId) : Loading PermissionSet :=
  .ofExcept ((loader.registry.expandImplied permissions).mapError LoadError.registry)

/-- Whether the user has been asked to verify an email address and has not done so. Only local users are asked,
and only while verification is required; no record means that the user was never asked. -/
def verificationPending (loader : Loader) (principal : Principal) : Loading Bool :=
  if loader.enforceVerification && principal.provider.isLocal then do
    if ← loader.source.verificationRequired.load then do
      let verification ← (loader.source.verification principal.userId).load
      return verification.any fun record => !record.isComplete
    else return false
  else return false

def load (loader : Loader) (user : UserId) : Loading UserGrants := do
  match ← (loader.source.principal user).load with
  | none => throw (.userNotFound user)
  | some principal =>
    if principal.isRoot then return .root user
    else if ← loader.verificationPending principal then return .pending user principal.teamIds
    else return .granted user principal.teamIds (← loader.expand principal.rolePermissions)

/-- The permissions that grants on a resource give. For a root user and for one who may do nothing yet these
make no difference, and the source is not asked. -/
def resourcePermissions (loader : Loader) (grants : UserGrants) (resourceType resourceId : String)
    (now : Timestamp) : Loading PermissionSet :=
  if grants.isRoot || grants.verificationPending then return ∅
  else do
    let found ← (loader.source.resourceGrants
      { resourceType, resourceId, userId := grants.userId, teamIds := grants.teamIds, now }).load
    let active := found.filter fun grant => grant.isActive now
    loader.expand (active.map fun grant => grant.permission)

def loadForResource (loader : Loader) (user : UserId) (resourceType resourceId : String) (now : Timestamp) :
    Loading UserGrants := do
  let grants ← loader.load user
  return grants.merge (← loader.resourcePermissions grants resourceType resourceId now)

end Loader

def Loading.result (loading : Loading α) : Except LoadError α :=
  (loading.perform .zero).1

end AccessControl
