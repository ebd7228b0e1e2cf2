import AccessControl.Permission.Basic

namespace AccessControl

abbrev UserId := String

abbrev RoleId := String

abbrev TeamId := String

/-- Milliseconds since the start of 1970. -/
abbrev Timestamp := Int64

inductive AuthProvider where
  /-- This gateway itself. -/
  | localAccounts
  | oidc
  | saml
  | ldap
  | other (name : String)
deriving DecidableEq

namespace AuthProvider

def name : AuthProvider → String
  | localAccounts => "local"
  | oidc => "oidc"
  | saml => "saml"
  | ldap => "ldap"
  | other name => name

/-- The provider of that name. No provider has a second spelling. -/
def ofName (name : String) : AuthProvider :=
  if name = "local" then localAccounts
  else if name = "oidc" then oidc
  else if name = "saml" then saml
  else if name = "ldap" then ldap
  else other name

def isLocal : AuthProvider → Bool
  | localAccounts => true
  | _ => false

end AuthProvider

structure Role where
  id : RoleId
  name : String
  permissions : List PermissionId
deriving DecidableEq

structure Team where
  id : TeamId
  name : String
  roles : List Role
deriving DecidableEq

structure Principal where
  userId : UserId
  isRoot : Bool
  provider : AuthProvider
  roles : List Role
  teams : List Team
deriving DecidableEq

namespace Principal

def teamIds (principal : Principal) : List TeamId :=
  principal.teams.map Team.id

/-- The permissions of the direct roles and then of the teams' roles. One that several roles give is listed
several times. -/
def rolePermissions (principal : Principal) : List PermissionId :=
  (principal.roles ++ principal.teams.flatMap Team.roles).flatMap Role.permissions

end Principal

/-- The state of a user's email verification; no time means that it has been asked for and not been given. -/
structure Verification where
  userId : UserId
  verifiedAt : Option Timestamp
deriving DecidableEq

def Verification.isComplete (verification : Verification) : Bool :=
  verification.verifiedAt.isSome

end AccessControl
