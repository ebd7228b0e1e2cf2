import AccessControl.Json.Record
import AccessControl.ResourceGrant.Basic

namespace AccessControl

open Json RecordReader

def PrincipalKind.toJson (kind : PrincipalKind) : Json := .string kind.name

def PrincipalKind.ofJson? (json : Json) : Option PrincipalKind :=
  (name? json).bind ofName?

def ResourceGrant.toJson (grant : ResourceGrant) : Json :=
  .object
    [("resource_type", .string grant.resourceType),
      ("resource_id", .string grant.resourceId),
      ("principal_type", grant.holder.kind.toJson),
      ("principal_id", .string grant.holder.id),
      ("permission_id", .string grant.permission),
      ("expires_at", ofNullable (fun time => .integer time.toInt) grant.expiresAt)]

def ResourceGrant.ofJson? : Json → Option ResourceGrant :=
  run? do
    let resourceType ← required "resource_type" text?
    let resourceId ← required "resource_id" text?
    let kind ← required "principal_type" PrincipalKind.ofJson?
    let id ← required "principal_id" text?
    let permission ← required "permission_id" text?
    let expiresAt ← optional "expires_at" int64?
    return { resourceType, resourceId, holder := ⟨kind, id⟩, permission, expiresAt }

end AccessControl
