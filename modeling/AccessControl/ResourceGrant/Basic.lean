import AccessControl.Principal.Basic

namespace AccessControl

inductive PrincipalKind where
  | user
  | team
deriving DecidableEq

namespace PrincipalKind

def name : PrincipalKind → String
  | user => "user"
  | team => "team"

def ofName? (name : String) : Option PrincipalKind :=
  if name = "user" then some user
  else if name = "team" then some team
  else none

theorem name_inj {left right : PrincipalKind} (same : left.name = right.name) : left = right := by
  cases left <;> cases right <;> simp [name] at same <;> rfl

end PrincipalKind

/-- Whom a grant is for. A user and a team of one id are different holders. -/
structure Holder where
  kind : PrincipalKind
  id : String
deriving DecidableEq

/-- What distinguishes one grant from another. -/
structure GrantKey where
  resourceType : String
  resourceId : String
  holder : Holder
  permission : PermissionId
deriving DecidableEq

structure ResourceGrant extends GrantKey where
  /-- The first moment at which the grant no longer counts. -/
  expiresAt : Option Timestamp
deriving DecidableEq

def ResourceGrant.isActive (grant : ResourceGrant) (now : Timestamp) : Bool :=
  match grant.expiresAt with
  | none => true
  | some time => now < time

/-- Asks for the grants on a resource that count for a user at a time. -/
structure GrantQuery where
  resourceType : String
  resourceId : String
  userId : UserId
  teamIds : List TeamId
  now : Timestamp
deriving DecidableEq

namespace GrantQuery

def covers (query : GrantQuery) (holder : Holder) : Bool :=
  match holder.kind with
  | .user => holder.id = query.userId
  | .team => holder.id ∈ query.teamIds

def isMatch (query : GrantQuery) (grant : ResourceGrant) : Bool :=
  grant.resourceType = query.resourceType && grant.resourceId = query.resourceId &&
    query.covers grant.holder && grant.isActive query.now

end GrantQuery

end AccessControl
