import AccessControl.Permission.Basic

namespace AccessControl

inductive Reason where
  | root
  | granted
  | notGranted
  | missingDependencies
  | verificationPending
deriving DecidableEq

namespace Reason

def isAllowed : Reason → Bool
  | root | granted => true
  | notGranted | missingDependencies | verificationPending => false

def name : Reason → String
  | root => "root"
  | granted => "granted"
  | notGranted => "not_granted"
  | missingDependencies => "missing_dependencies"
  | verificationPending => "verification_pending"

def all : List Reason :=
  [root, granted, notGranted, missingDependencies, verificationPending]

def ofName? (name : String) : Option Reason :=
  all.find? fun reason => reason.name = name

end Reason

structure Decision where
  permission : PermissionId
  allowed : Bool
  reason : Reason
  /-- What the permission depends on and the user does not hold. -/
  missing : List PermissionId := []
deriving DecidableEq

namespace Decision

def of (permission : PermissionId) (reason : Reason) : Decision :=
  { permission, reason, allowed := reason.isAllowed }

def missingDependencies (permission : PermissionId) (missing : List PermissionId) : Decision :=
  { of permission .missingDependencies with missing := missing }

end Decision

end AccessControl
