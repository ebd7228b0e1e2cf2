import AccessControl.Json.Record
import AccessControl.Principal.Basic

namespace AccessControl

open Json RecordReader

def AuthProvider.toJson : AuthProvider → Json
  | .other name => .object [("other", .string name)]
  | provider => .string provider.name

/-- Only the known providers are written by name alone. -/
def AuthProvider.ofJson? (json : Json) : Option AuthProvider :=
  match json with
  | .object [("other", .string name)] => some (.other name)
  | _ => do
    let provider := ofName (← name? json)
    match provider with
    | .other _ => none
    | _ => return provider

def Role.toJson (role : Role) : Json :=
  .object [("id", .string role.id), ("name", .string role.name), ("permissions", strings role.permissions)]

def Role.ofJson? : Json → Option Role :=
  run? do
    return {
      id := ← required "id" text?
      name := ← required "name" text?
      permissions := ← required "permissions" texts? }

def Team.toJson (team : Team) : Json :=
  .object [("id", .string team.id), ("name", .string team.name), ("roles", .array (team.roles.map Role.toJson))]

def Team.ofJson? : Json → Option Team :=
  run? do
    return {
      id := ← required "id" text?
      name := ← required "name" text?
      roles := ← required "roles" (list? Role.ofJson?) }

def Principal.toJson (principal : Principal) : Json :=
  .object
    [("user_id", .string principal.userId),
      ("is_root", .bool principal.isRoot),
      ("auth_provider", principal.provider.toJson),
      ("roles", .array (principal.roles.map Role.toJson)),
      ("teams", .array (principal.teams.map Team.toJson))]

def Principal.ofJson? : Json → Option Principal :=
  run? do
    return {
      userId := ← required "user_id" text?
      isRoot := ← required "is_root" bool?
      provider := ← required "auth_provider" AuthProvider.ofJson?
      roles := ← required "roles" (list? Role.ofJson?)
      teams := ← required "teams" (list? Team.ofJson?) }

def Verification.toJson (verification : Verification) : Json :=
  .object
    [("user_id", .string verification.userId),
      ("verified_at", ofNullable (fun time => .integer time.toInt) verification.verifiedAt)]

def Verification.ofJson? : Json → Option Verification :=
  run? do
    return {
      userId := ← required "user_id" text?
      verifiedAt := ← optional "verified_at" int64? }

end AccessControl
