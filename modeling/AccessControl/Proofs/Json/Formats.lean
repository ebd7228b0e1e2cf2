import AccessControl.Access.JsonForm
import AccessControl.Permission.JsonForm
import AccessControl.Principal.JsonForm
import AccessControl.Proofs.Json.Records
import AccessControl.ResourceGrant.JsonForm

namespace AccessControl

open Json RecordReader

namespace Json

/-- What is written is read as what it was, and what can be read at all is read alike after it has been written. -/
structure Restores (write : α → Json) (read? : Json → Option α) : Prop where
  written : ∀ value, read? (write value) = some value
  rewritten : ∀ json, ((read? json).bind fun value => read? (write value)) = read? json

/-- Records are written as objects with fields of these names, and read from objects by these names alone. Where a
field is given once, its place among the others does not count either. -/
structure RestoresFields (names : List String) (write : α → Json) (read? : Json → Option α) : Prop
    extends Restores write read? where
  fields : ∀ value, ∃ members, write value = .object members ∧ (members.map Prod.fst).Sublist names
  extended : ∀ members others : List (String × Json),
    (others.filter fun member => names.contains member.1) = (members.filter fun member => names.contains member.1) →
    read? (.object others) = read? (.object members)
  reordered : ∀ members others : List (String × Json), (members.map Prod.fst).Nodup → others.Perm members →
    read? (.object others) = read? (.object members)

section

variable {write : α → Json} {read? : Json → Option α} {names : List String} {reader : RecordReader α}

theorem Restores.of_written (written : ∀ value, read? (write value) = some value) : Restores write read? where
  written := written
  rewritten json := by
    cases read : read? json with
    | none => rfl
    | some value => exact written value

theorem RestoresFields.of_looksUp (looksUp : LooksUp names reader)
    (written : ∀ value, reader.run? (write value) = some value)
    (fields : ∀ value, ∃ members, write value = .object members ∧ (members.map Prod.fst).Sublist names) :
    RestoresFields names write reader.run? where
  toRestores := .of_written written
  fields := fields
  extended members others same := by
    refine looksUp.run?_eq fun name asked => ?_
    have known : names.contains name = true := List.contains_iff_mem.mpr asked
    rw [← lastNamed_filter known others, same, lastNamed_filter known members]
  reordered _ _ distinct perm := looksUp.run?_eq fun _ _ => lastNamed_perm perm distinct

theorem text?_string (text : String) : text? (.string text) = some text := rfl

theorem bool?_bool (value : Bool) : bool? (.bool value) = some value := rfl

theorem list?_map {items : List α} (written : ∀ item, read? (write item) = some item) :
    list? read? (.array (items.map write)) = some items := by
  rw [list?]
  induction items with
  | nil => rfl
  | cons first rest ih => rw [List.map_cons, List.mapM_cons, written, ih]; rfl

theorem int64?_toInt (value : Int64) : int64? (.integer value.toInt) = some value := by
  have inRange : Int64.minValue.toInt ≤ value.toInt ∧ value.toInt ≤ Int64.maxValue.toInt :=
    ⟨value.minValue_le_toInt, value.toInt_le⟩
  rw [int64?, if_pos inRange, Int64.ofInt_toInt]

theorem nullable?_ofNullable (written : ∀ value, read? (write value) = some value)
    (notNull : ∀ value, write value ≠ .null) (value : Option α) :
    nullable? read? (ofNullable write value) = some value := by
  cases value with
  | none => rfl
  | some value =>
    have read : nullable? read? (write value) = (read? (write value)).map some := by
      unfold nullable?
      split
      · next isNull => exact absurd isNull (notNull value)
      · rfl
    rw [ofNullable, read, written, Option.map_some]

theorem nullable?_time (time : Option Timestamp) :
    nullable? int64? (ofNullable (fun time => .integer time.toInt) time) = some time :=
  nullable?_ofNullable int64?_toInt (fun _ same => nomatch same) time

end

end Json

theorem Scope.ofJson?_toJson (scope : Scope) : Scope.ofJson? scope.toJson = some scope := by
  cases scope <;> rfl

theorem PrincipalKind.ofJson?_toJson (kind : PrincipalKind) : PrincipalKind.ofJson? kind.toJson = some kind := by
  cases kind <;> rfl

theorem Reason.ofJson?_toJson (reason : Reason) : Reason.ofJson? reason.toJson = some reason := by
  cases reason <;> rfl

/-- Any other provider is written with its name in an object, so the name may be that of a known provider. -/
theorem AuthProvider.ofJson?_toJson (provider : AuthProvider) :
    AuthProvider.ofJson? provider.toJson = some provider := by
  cases provider <;> rfl

example : AuthProvider.ofJson? (AuthProvider.other "local").toJson = some (.other "local") := rfl

namespace Permission

def fieldNames : List String :=
  ["id", "module", "category", "display_name", "description", "default_scope", "depends_on", "implies", "metadata"]

theorem ofJson?_toJson (permission : Permission) : ofJson? permission.toJson = some permission := by
  refine Makes.run? ?_
  refine (makes_required rfl (text?_string permission.id)).bind ?_
  refine (makes_required rfl (text?_string permission.moduleName)).bind ?_
  refine (makes_withDefault rfl (text?_string permission.category)).bind ?_
  refine (makes_withDefault rfl (text?_string permission.displayName)).bind ?_
  refine (makes_withDefault rfl (text?_string permission.description)).bind ?_
  refine (makes_withDefault rfl permission.scope.ofJson?_toJson).bind ?_
  refine (makes_withDefault rfl (texts?_strings permission.dependsOn)).bind ?_
  refine (makes_withDefault rfl (texts?_strings permission.implies)).bind ?_
  exact (makes_withDefault rfl (textMap?_ofTextMap permission.metadata)).bind (makes_pure permission _)

theorem restoresFields : RestoresFields fieldNames toJson ofJson? := by
  refine .of_looksUp ?_ ofJson?_toJson fun permission => ⟨_, rfl, .refl _⟩
  exact (looksUp_required (by decide)).bind fun _ => (looksUp_required (by decide)).bind fun _ =>
    (looksUp_withDefault (by decide)).bind fun _ => (looksUp_withDefault (by decide)).bind fun _ =>
    (looksUp_withDefault (by decide)).bind fun _ => (looksUp_withDefault (by decide)).bind fun _ =>
    (looksUp_withDefault (by decide)).bind fun _ => (looksUp_withDefault (by decide)).bind fun _ =>
    (looksUp_withDefault (by decide)).bind fun _ => looksUp_pure _

end Permission

namespace Role

def fieldNames : List String := ["id", "name", "permissions"]

theorem ofJson?_toJson (role : Role) : ofJson? role.toJson = some role := by
  refine Makes.run? ?_
  refine (makes_required rfl (text?_string role.id)).bind ?_
  refine (makes_required rfl (text?_string role.name)).bind ?_
  exact (makes_required rfl (texts?_strings role.permissions)).bind (makes_pure role _)

theorem restoresFields : RestoresFields fieldNames toJson ofJson? := by
  refine .of_looksUp ?_ ofJson?_toJson fun role => ⟨_, rfl, .refl _⟩
  exact (looksUp_required (by decide)).bind fun _ => (looksUp_required (by decide)).bind fun _ =>
    (looksUp_required (by decide)).bind fun _ => looksUp_pure _

end Role

namespace Team

def fieldNames : List String := ["id", "name", "roles"]

theorem ofJson?_toJson (team : Team) : ofJson? team.toJson = some team := by
  refine Makes.run? ?_
  refine (makes_required rfl (text?_string team.id)).bind ?_
  refine (makes_required rfl (text?_string team.name)).bind ?_
  exact (makes_required rfl (list?_map Role.ofJson?_toJson)).bind (makes_pure team _)

theorem restoresFields : RestoresFields fieldNames toJson ofJson? := by
  refine .of_looksUp ?_ ofJson?_toJson fun team => ⟨_, rfl, .refl _⟩
  exact (looksUp_required (by decide)).bind fun _ => (looksUp_required (by decide)).bind fun _ =>
    (looksUp_required (by decide)).bind fun _ => looksUp_pure _

end Team

namespace Principal

def fieldNames : List String := ["user_id", "is_root", "auth_provider", "roles", "teams"]

theorem ofJson?_toJson (principal : Principal) : ofJson? principal.toJson = some principal := by
  refine Makes.run? ?_
  refine (makes_required rfl (text?_string principal.userId)).bind ?_
  refine (makes_required rfl (bool?_bool principal.isRoot)).bind ?_
  refine (makes_required rfl principal.provider.ofJson?_toJson).bind ?_
  refine (makes_required rfl (list?_map Role.ofJson?_toJson)).bind ?_
  exact (makes_required rfl (list?_map Team.ofJson?_toJson)).bind (makes_pure principal _)

theorem restoresFields : RestoresFields fieldNames toJson ofJson? := by
  refine .of_looksUp ?_ ofJson?_toJson fun principal => ⟨_, rfl, .refl _⟩
  exact (looksUp_required (by decide)).bind fun _ => (looksUp_required (by decide)).bind fun _ =>
    (looksUp_required (by decide)).bind fun _ => (looksUp_required (by decide)).bind fun _ =>
    (looksUp_required (by decide)).bind fun _ => looksUp_pure _

end Principal

namespace Verification

def fieldNames : List String := ["user_id", "verified_at"]

theorem ofJson?_toJson (verification : Verification) : ofJson? verification.toJson = some verification := by
  refine Makes.run? ?_
  refine (makes_required rfl (text?_string verification.userId)).bind ?_
  exact (makes_optional rfl (nullable?_time verification.verifiedAt)).bind (makes_pure verification _)

theorem restoresFields : RestoresFields fieldNames toJson ofJson? := by
  refine .of_looksUp ?_ ofJson?_toJson fun verification => ⟨_, rfl, .refl _⟩
  exact (looksUp_required (by decide)).bind fun _ => (looksUp_optional (by decide)).bind fun _ => looksUp_pure _

end Verification

namespace ResourceGrant

def fieldNames : List String :=
  ["resource_type", "resource_id", "principal_type", "principal_id", "permission_id", "expires_at"]

theorem ofJson?_toJson (grant : ResourceGrant) : ofJson? grant.toJson = some grant := by
  refine Makes.run? ?_
  refine (makes_required rfl (text?_string grant.resourceType)).bind ?_
  refine (makes_required rfl (text?_string grant.resourceId)).bind ?_
  refine (makes_required rfl grant.holder.kind.ofJson?_toJson).bind ?_
  refine (makes_required rfl (text?_string grant.holder.id)).bind ?_
  refine (makes_required rfl (text?_string grant.permission)).bind ?_
  exact (makes_optional rfl (nullable?_time grant.expiresAt)).bind (makes_pure grant _)

theorem restoresFields : RestoresFields fieldNames toJson ofJson? := by
  refine .of_looksUp ?_ ofJson?_toJson fun grant => ⟨_, rfl, .refl _⟩
  exact (looksUp_required (by decide)).bind fun _ => (looksUp_required (by decide)).bind fun _ =>
    (looksUp_required (by decide)).bind fun _ => (looksUp_required (by decide)).bind fun _ =>
    (looksUp_required (by decide)).bind fun _ => (looksUp_optional (by decide)).bind fun _ => looksUp_pure _

end ResourceGrant

namespace Decision

def fieldNames : List String := ["permission_id", "allowed", "reason", "missing"]

/-- The fields that are always written. -/
def outcomeMembers (decision : Decision) : List (String × Json) :=
  [("permission_id", .string decision.permission), ("allowed", .bool decision.allowed),
    ("reason", decision.reason.toJson)]

theorem toJson_of_nil {decision : Decision} (complete : decision.missing = []) :
    decision.toJson = .object decision.outcomeMembers := by
  simp [toJson, outcomeMembers, complete]

theorem toJson_of_ne_nil {decision : Decision} (incomplete : decision.missing ≠ []) :
    decision.toJson = .object (decision.outcomeMembers ++ [("missing", strings decision.missing)]) := by
  simp [toJson, outcomeMembers, incomplete]

theorem ofJson?_toJson (decision : Decision) : ofJson? decision.toJson = some decision := by
  by_cases complete : decision.missing = []
  · rw [toJson_of_nil complete]
    refine Makes.run? ?_
    refine (makes_required rfl (text?_string decision.permission)).bind ?_
    refine (makes_required rfl (bool?_bool decision.allowed)).bind ?_
    refine (makes_required rfl decision.reason.ofJson?_toJson).bind ?_
    refine (makes_default rfl).bind ?_
    rw [← complete]
    exact makes_pure decision _
  · rw [toJson_of_ne_nil complete]
    refine Makes.run? ?_
    refine (makes_required rfl (text?_string decision.permission)).bind ?_
    refine (makes_required rfl (bool?_bool decision.allowed)).bind ?_
    refine (makes_required rfl decision.reason.ofJson?_toJson).bind ?_
    exact (makes_withDefault rfl (texts?_strings decision.missing)).bind (makes_pure decision _)

theorem restoresFields : RestoresFields fieldNames toJson ofJson? := by
  refine .of_looksUp ?_ ofJson?_toJson fun decision => ?_
  · exact (looksUp_required (by decide)).bind fun _ => (looksUp_required (by decide)).bind fun _ =>
      (looksUp_required (by decide)).bind fun _ => (looksUp_withDefault (by decide)).bind fun _ => looksUp_pure _
  · by_cases complete : decision.missing = []
    · exact ⟨_, toJson_of_nil complete, List.sublist_append_left ["permission_id", "allowed", "reason"] ["missing"]⟩
    · exact ⟨_, toJson_of_ne_nil complete, .refl _⟩

end Decision

namespace UserGrants

def fieldNames : List String := ["user_id", "is_root", "team_ids", "permissions", "verification_pending"]

/-- The form of the grants in which their permissions are listed like this. -/
def toJsonListing (grants : UserGrants) (permissions : List PermissionId) : Json :=
  .object
    [("user_id", .string grants.userId), ("is_root", .bool grants.isRoot), ("team_ids", strings grants.teamIds),
      ("permissions", strings permissions), ("verification_pending", .bool grants.verificationPending)]

/-- The order in which a set is listed is lost with the list, and so is how often each of its members is. -/
theorem ofJson?_toJsonListing {grants : UserGrants} {permissions : List PermissionId}
    (listed : ∀ id, id ∈ permissions ↔ id ∈ grants.permissions) :
    ofJson? (grants.toJsonListing permissions) = some grants := by
  have same : Std.ExtTreeSet.ofList permissions = grants.permissions :=
    Std.ExtTreeSet.ext_mem fun id => by simpa using listed id
  refine Makes.run? ?_
  refine (makes_required rfl (text?_string grants.userId)).bind ?_
  refine (makes_required rfl (bool?_bool grants.isRoot)).bind ?_
  refine (makes_required rfl (texts?_strings grants.teamIds)).bind ?_
  refine (makes_required rfl (texts?_strings permissions)).bind ?_
  refine (makes_required rfl (bool?_bool grants.verificationPending)).bind ?_
  rw [same]
  exact makes_pure grants _

theorem ofJson?_toJson (grants : UserGrants) : ofJson? grants.toJson = some grants :=
  ofJson?_toJsonListing fun _ => Std.ExtTreeSet.mem_toList

theorem restoresFields : RestoresFields fieldNames toJson ofJson? := by
  refine .of_looksUp ?_ ofJson?_toJson fun grants => ⟨_, rfl, .refl _⟩
  exact (looksUp_required (by decide)).bind fun _ => (looksUp_required (by decide)).bind fun _ =>
    (looksUp_required (by decide)).bind fun _ => (looksUp_required (by decide)).bind fun _ =>
    (looksUp_required (by decide)).bind fun _ => looksUp_pure _

end UserGrants

namespace Json

/-- Every record is read back as it was written, from whatever object has its fields. What a decision has not to say
of missing permissions is left out and understood; and a set of permissions may be listed in any way. -/
theorem records_roundTrip :
    Restores Scope.toJson Scope.ofJson? ∧
    Restores AuthProvider.toJson AuthProvider.ofJson? ∧
    Restores PrincipalKind.toJson PrincipalKind.ofJson? ∧
    RestoresFields Permission.fieldNames Permission.toJson Permission.ofJson? ∧
    RestoresFields Role.fieldNames Role.toJson Role.ofJson? ∧
    RestoresFields Team.fieldNames Team.toJson Team.ofJson? ∧
    RestoresFields Principal.fieldNames Principal.toJson Principal.ofJson? ∧
    RestoresFields ResourceGrant.fieldNames ResourceGrant.toJson ResourceGrant.ofJson? ∧
    RestoresFields Verification.fieldNames Verification.toJson Verification.ofJson? ∧
    RestoresFields Decision.fieldNames Decision.toJson Decision.ofJson? ∧
    RestoresFields UserGrants.fieldNames UserGrants.toJson UserGrants.ofJson? ∧
    (∀ decision : Decision, decision.missing = [] → ∃ members, decision.toJson = .object members ∧
      "missing" ∉ members.map Prod.fst ∧ Decision.ofJson? (.object members) = some decision) ∧
    ∀ (grants : UserGrants) (permissions : List PermissionId), (∀ id, id ∈ permissions ↔ id ∈ grants.permissions) →
      UserGrants.ofJson? (grants.toJsonListing permissions) = some grants := by
  refine ⟨.of_written Scope.ofJson?_toJson, .of_written AuthProvider.ofJson?_toJson,
    .of_written PrincipalKind.ofJson?_toJson, Permission.restoresFields, Role.restoresFields, Team.restoresFields,
    Principal.restoresFields, ResourceGrant.restoresFields, Verification.restoresFields, Decision.restoresFields,
    UserGrants.restoresFields, fun decision complete => ?_, fun _ _ => UserGrants.ofJson?_toJsonListing⟩
  have written := Decision.toJson_of_nil complete
  refine ⟨decision.outcomeMembers, written, by simp [Decision.outcomeMembers], ?_⟩
  rw [← written]
  exact decision.ofJson?_toJson

/-- The fields stand the wrong way round and among others, one of which has the name of a field in another case. -/
theorem reordered_grant_read :
    ResourceGrant.ofJson? (.object
        [("expires_at", .integer (-1)), ("note", .null), ("permission_id", .string "edit"),
          ("principal_id", .string "ann"), ("principal_type", .string "user"), ("Resource_Id", .string "8"),
          ("resource_id", .string "7"), ("resource_type", .string "doc")]) =
      some ⟨⟨"doc", "7", ⟨.user, "ann"⟩, "edit"⟩, some (-1)⟩ := by
  let written : List (String × Json) :=
    [("resource_type", .string "doc"), ("resource_id", .string "7"), ("principal_type", .string "user"),
      ("principal_id", .string "ann"), ("permission_id", .string "edit"), ("expires_at", .integer (-1))]
  have grants := records_roundTrip.2.2.2.2.2.2.2.1
  have distinct : (written.map Prod.fst).Nodup := by decide
  have extended := grants.extended written.reverse
    [("expires_at", .integer (-1)), ("note", .null), ("permission_id", .string "edit"),
      ("principal_id", .string "ann"), ("principal_type", .string "user"), ("Resource_Id", .string "8"),
      ("resource_id", .string "7"), ("resource_type", .string "doc")] rfl
  have reordered := grants.reordered written written.reverse distinct written.reverse_perm
  exact (extended.trans reordered).trans (grants.written ⟨⟨"doc", "7", ⟨.user, "ann"⟩, "edit"⟩, some (-1)⟩)

end Json

end AccessControl
