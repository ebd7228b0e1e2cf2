import AccessControl.Principal.Basic

namespace AccessControl

structure UserGrants where
  userId : UserId
  /-- A root user may do everything, and the set of permissions says nothing. -/
  isRoot : Bool := false
  teamIds : List TeamId := []
  permissions : PermissionSet := ∅
  /-- The user has yet to verify an email address, and until then may do nothing. -/
  verificationPending : Bool := false
deriving DecidableEq

namespace UserGrants

def root (userId : UserId) : UserGrants :=
  { userId, isRoot := true }

def pending (userId : UserId) (teamIds : List TeamId) : UserGrants :=
  { userId, teamIds, verificationPending := true }

def granted (userId : UserId) (teamIds : List TeamId) (permissions : PermissionSet) : UserGrants :=
  { userId, teamIds, permissions }

/-- Whether the permission is in the set; root or not makes no difference. -/
def holds (grants : UserGrants) (permission : PermissionId) : Bool :=
  permission ∈ grants.permissions

def merge (grants : UserGrants) (permissions : PermissionSet) : UserGrants :=
  { grants with permissions := grants.permissions ∪ permissions }

/-- Those of the required permissions that are not held, in the order given. -/
def missing (grants : UserGrants) (required : List PermissionId) : List PermissionId :=
  required.filter fun permission => !grants.holds permission

/-- Whether a permission and what it depends on are held, or the user is root. -/
def satisfies (grants : UserGrants) (permission : PermissionId) (dependencies : List PermissionId) : Bool :=
  grants.isRoot || grants.holds permission && (grants.missing dependencies).isEmpty

def sorted (grants : UserGrants) : List PermissionId :=
  grants.permissions.toList

end UserGrants

end AccessControl
