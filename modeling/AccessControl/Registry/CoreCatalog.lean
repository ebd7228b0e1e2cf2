import AccessControl.Registry.Basic

namespace AccessControl.CoreCatalog

def moduleName : String := "core"

/-- A core permission without edges, granted globally. -/
def define (id category displayName description : String) : Permission :=
  { id, moduleName, category, displayName, description }

def users : List Permission :=
  [define "user.view" "users" "View users" "List and inspect user accounts",
    { define "user.create" "users" "Create users" "Create user accounts" with
      dependsOn := ["user.view"] },
    { define "user.edit" "users" "Edit users" "Update user accounts" with
      dependsOn := ["user.view"] },
    { define "user.delete" "users" "Delete users" "Delete user accounts" with
      dependsOn := ["user.view", "user.edit"] },
    { define "user.manage" "users" "Manage users" "Full control over user accounts" with
      dependsOn := ["user.view"]
      implies := ["user.view", "user.create", "user.edit", "user.delete"] }]

def teams : List Permission :=
  [define "team.view" "teams" "View teams" "List teams and their members",
    { define "team.manage" "teams" "Manage teams" "Create teams and change membership" with
      dependsOn := ["team.view"] }]

def rolesAndPermissions : List Permission :=
  [define "role.view" "roles" "View roles" "List roles and their permissions",
    { define "role.manage" "roles" "Manage roles" "Create roles and change their permissions" with
      dependsOn := ["role.view"] },
    define "permission.view" "permissions" "View permissions" "Browse the permission catalog",
    { define "permission.manage" "permissions" "Manage permissions" "Grant and revoke resource permissions" with
      dependsOn := ["permission.view"] }]

def connections : List Permission :=
  [{ define "connection.view" "connections" "View connections" "See connection entries" with
      scope := .resource },
    { define "connection.launch" "connections" "Launch connections" "Open a session" with
      scope := .resource
      dependsOn := ["connection.view"] },
    { define "connection.manage" "connections" "Manage connections" "Edit and delete connections" with
      scope := .resource
      dependsOn := ["connection.view"]
      implies := ["connection.view", "connection.launch"] },
    { define "connection.share" "connections" "Share connections" "Share a connection with others" with
      scope := .resource
      dependsOn := ["connection.view"] }]

def audit : List Permission :=
  [define "audit.view" "audit" "View audit log" "Read the audit log"]

def permissions : List Permission :=
  users ++ teams ++ rolesAndPermissions ++ connections ++ audit

def register : Registration Unit :=
  Registration.registerAll permissions

end AccessControl.CoreCatalog
