import AccessControl.Permission.Basic

namespace AccessControl

inductive RegistryError where
  | emptyId
  | duplicateId (id : PermissionId)
  | selfDependency (id : PermissionId)
  | selfImplication (id : PermissionId)
  | unknownPermission (id : PermissionId)
  | circularDependency (id : PermissionId)
  | missingDependency (permission dependency : PermissionId)
  | missingImplication (permission implied : PermissionId)
  | invalidProtocolPermission (reason : String)
deriving DecidableEq

namespace RegistryError

def message : RegistryError → String
  | emptyId => "permission id must not be empty"
  | duplicateId id => "permission already registered: " ++ id
  | selfDependency id => "permission " ++ id ++ " cannot depend on itself"
  | selfImplication id => "permission " ++ id ++ " cannot imply itself"
  | unknownPermission id => "unknown permission: " ++ id
  | circularDependency id => "circular dependency detected at permission " ++ id
  | missingDependency permission dependency =>
    "permission " ++ permission ++ " depends on unregistered permission " ++ dependency
  | missingImplication permission implied =>
    "permission " ++ permission ++ " implies unregistered permission " ++ implied
  | invalidProtocolPermission reason => "invalid protocol permission: " ++ reason

/-- Whether the registered permissions themselves are at fault, not one registration. -/
def isGraphFault : RegistryError → Bool
  | unknownPermission _ | circularDependency _ | missingDependency _ _ | missingImplication _ _ => true
  | _ => false

end RegistryError

end AccessControl
