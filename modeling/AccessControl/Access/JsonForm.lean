import AccessControl.Access.Decision
import AccessControl.Access.UserGrants
import AccessControl.Json.Record

namespace AccessControl

open Json RecordReader

def Reason.toJson (reason : Reason) : Json := .string reason.name

def Reason.ofJson? (json : Json) : Option Reason :=
  (name? json).bind ofName?

/-- An empty list of what is missing is left out. -/
def Decision.toJson (decision : Decision) : Json :=
  .object
    ([("permission_id", .string decision.permission),
      ("allowed", .bool decision.allowed),
      ("reason", decision.reason.toJson)] ++
      if decision.missing.isEmpty then [] else [("missing", strings decision.missing)])

def Decision.ofJson? : Json → Option Decision :=
  run? do
    return {
      permission := ← required "permission_id" text?
      allowed := ← required "allowed" bool?
      reason := ← required "reason" Reason.ofJson?
      missing := ← withDefault "missing" texts? [] }

def UserGrants.toJson (grants : UserGrants) : Json :=
  .object
    [("user_id", .string grants.userId),
      ("is_root", .bool grants.isRoot),
      ("team_ids", strings grants.teamIds),
      ("permissions", strings grants.sorted),
      ("verification_pending", .bool grants.verificationPending)]

def UserGrants.ofJson? : Json → Option UserGrants :=
  run? do
    return {
      userId := ← required "user_id" text?
      isRoot := ← required "is_root" bool?
      teamIds := ← required "team_ids" texts?
      permissions := .ofList (← required "permissions" texts?)
      verificationPending := ← required "verification_pending" bool? }

end AccessControl
