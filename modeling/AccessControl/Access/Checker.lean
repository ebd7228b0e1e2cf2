import AccessControl.Access.Decision
import AccessControl.Access.Loader
import AccessControl.Registry.Dependencies
import AccessControl.Text.Blank

/-!
Checks: whether a user may exercise a permission, everywhere or on one resource. A denial is a decision with its
reason; an error says that no decision could be made.
-/

namespace AccessControl

inductive CheckError where
  | invalidInput (field : String)
  | store (error : StoreError)
  | unknownPermission (id : PermissionId)
  | circularDependency (id : PermissionId)
  | userNotFound (user : UserId)
  | timeout (limit : Duration)
  | registry (error : RegistryError)
deriving DecidableEq

namespace CheckError

def ofRegistry : RegistryError → CheckError
  | .unknownPermission id => unknownPermission id
  | .circularDependency id => circularDependency id
  | error => registry error

def ofLoad : LoadError → CheckError
  | .userNotFound user => userNotFound user
  | .store error => store error
  | .registry error => ofRegistry error

def message : CheckError → String
  | invalidInput field => field ++ " must not be blank"
  | store error => "storage error: " ++ error.message
  | unknownPermission id => "unknown permission: " ++ id
  | circularDependency id => "circular dependency detected at permission: " ++ id
  | userNotFound user => "user not found: " ++ user
  | timeout limit => "storage did not respond within " ++ limit.text
  | registry error => "registry error: " ++ error.message

def isMisconfiguration : CheckError → Bool
  | unknownPermission _ | circularDependency _ => true
  | _ => false

def isStorage : CheckError → Bool
  | store _ | timeout _ => true
  | _ => false

/-- What may be told to whoever asked; it says nothing of the cause. -/
def publicMessage (_ : CheckError) : String := "permission check failed"

end CheckError

structure CheckerConfig where
  /-- How long the reads of one check may take together. -/
  timeout : Option Duration := some (.ofSeconds 5)
  enforceVerification : Bool := true
deriving DecidableEq

structure Checker where
  registry : Registry
  source : GrantSource
  config : CheckerConfig := {}

namespace Checker

def loader (checker : Checker) : Loader :=
  { registry := checker.registry
    source := checker.source
    enforceVerification := checker.config.enforceVerification }

/-- Loads within the time limit. Reads that take just as long as the limit are in time. -/
def bounded (checker : Checker) (loading : Loading α) : Except CheckError α :=
  let (result, elapsed) := loading.perform .zero
  match checker.config.timeout with
  | some limit => if limit < elapsed then .error (.timeout limit) else result.mapError .ofLoad
  | none => result.mapError .ofLoad

def require (field value : String) : Except CheckError Unit :=
  if Text.isBlank value then .error (.invalidInput field) else .ok ()

/-- Whether a permission and all it depends on are among the grants. A root user is allowed everything, also what
is not registered; for others an unregistered permission and a fault in what it depends on are errors. -/
def decide (checker : Checker) (grants : UserGrants) (permission : PermissionId) : Except CheckError Decision :=
  if grants.isRoot then .ok (.of permission .root)
  else if permission ∈ checker.registry then
    match checker.registry.resolveDependencies permission with
    | .error error => .error (.ofRegistry error)
    | .ok dependencies =>
      if grants.verificationPending then .ok (.of permission .verificationPending)
      else if !grants.holds permission then .ok (.of permission .notGranted)
      else if (grants.missing dependencies).isEmpty then .ok (.of permission .granted)
      else .ok (.missingDependencies permission (grants.missing dependencies))
  else .error (.unknownPermission permission)

def explain (checker : Checker) (user : UserId) (permission : PermissionId) : Except CheckError Decision := do
  require "user_id" user
  require "permission_id" permission
  let grants ← checker.bounded (checker.loader.load user)
  checker.decide grants permission

def check (checker : Checker) (user : UserId) (permission : PermissionId) : Except CheckError Bool := do
  return (← checker.explain user permission).allowed

def explainResource (checker : Checker) (user : UserId) (resourceType resourceId : String)
    (permission : PermissionId) (now : Timestamp) : Except CheckError Decision := do
  require "user_id" user
  require "resource_type" resourceType
  require "resource_id" resourceId
  require "permission_id" permission
  let grants ← checker.bounded (checker.loader.loadForResource user resourceType resourceId now)
  checker.decide grants permission

def checkResource (checker : Checker) (user : UserId) (resourceType resourceId : String)
    (permission : PermissionId) (now : Timestamp) : Except CheckError Bool := do
  return (← checker.explainResource user resourceType resourceId permission now).allowed

/-- The permissions of a user in ascending order; for a root user these are all registered ones. -/
def effective (checker : Checker) (grants : UserGrants) : List PermissionId :=
  if grants.isRoot then checker.registry.ids else grants.sorted

def userPermissions (checker : Checker) (user : UserId) : Except CheckError (List PermissionId) := do
  require "user_id" user
  return checker.effective (← checker.bounded (checker.loader.load user))

def resourcePermissions (checker : Checker) (user : UserId) (resourceType resourceId : String)
    (now : Timestamp) : Except CheckError (List PermissionId) := do
  require "user_id" user
  require "resource_type" resourceType
  require "resource_id" resourceId
  return checker.effective
    (← checker.bounded (checker.loader.loadForResource user resourceType resourceId now))

end Checker

/-- Writes the registered permissions into the catalog of a store, and answers how many were written. -/
def Registry.syncCatalog [Store σ] (registry : Registry) : Action σ Nat :=
  Store.upsertPermissions registry.permissions

end AccessControl
