import AccessControl.Registry.Basic

namespace AccessControl.Protocol

open Text

def permissionId (driver action : String) : PermissionId := "protocol:" ++ driver ++ "." ++ action

def moduleName (driver : String) : String := "protocols." ++ driver

def category (driver : String) : String := "protocol:" ++ driver

def permissionFor (driver action : String) (permission : Permission) : Permission :=
  { permission with
    id := permissionId driver action
    moduleName := moduleName driver
    category := category driver
    metadata := (permission.metadata.insert "driver" driver).insert "action" action }

/-- Registers a permission for an action of a driver; both names are trimmed first. -/
def register (driver action : String) (permission : Permission) : Registration Unit :=
  if trim driver = "" then throw (.invalidProtocolPermission "driver id must not be empty")
  else if trim action = "" then
    throw (.invalidProtocolPermission ("action for driver " ++ trim driver ++ " must not be empty"))
  else Registration.register (permissionFor (trim driver) (trim action) permission)

end AccessControl.Protocol
