import AccessControl.Store.Memory

namespace AccessControl.Fixture

/-- The role made for a user or a team of that id. -/
def roleOf (id : String) : RoleId := id ++ "-role"

/-- Creates the user's own role with these permissions and assigns it. -/
def attachRole (user : UserId) (permissions : List PermissionId) : Action MemoryStore Unit := do
  MemoryStore.addRole (roleOf user) permissions
  MemoryStore.assignRole user (roleOf user)

def userWithPermissions (user : UserId) (permissions : List PermissionId) : Action MemoryStore Unit := do
  MemoryStore.addUser user .oidc
  attachRole user permissions

/-- A local user who has been asked to verify an email address and has not done so. -/
def pendingLocalUser (user : UserId) (permissions : List PermissionId) : Action MemoryStore Unit := do
  MemoryStore.addUser user .localAccounts
  attachRole user permissions
  MemoryStore.requireVerification true
  MemoryStore.setVerification user none

def rootUser (user : UserId) : Action MemoryStore Unit := do
  MemoryStore.addUser user .oidc
  MemoryStore.setRoot user true

def teamWithPermissions (team : TeamId) (permissions : List PermissionId) (members : List UserId) :
    Action MemoryStore Unit := do
  MemoryStore.addTeam team team
  MemoryStore.addRole (roleOf team) permissions
  MemoryStore.assignTeamRole team (roleOf team)
  members.forM fun member => MemoryStore.addTeamMember team member

def grantOn (user : UserId) (resourceType resourceId : String) (permission : PermissionId)
    (expiresAt : Option Timestamp) : Action MemoryStore Unit :=
  MemoryStore.grantResource { resourceType, resourceId, holder := ⟨.user, user⟩, permission, expiresAt }

end AccessControl.Fixture
