import AccessControl.Proofs.Store.Rows
import AccessControl.Store.Database.Basic
import AccessControl.Store.Memory

namespace AccessControl

theorem ResourceGrant.isActive_iff {grant : ResourceGrant} {now : Timestamp} :
    grant.isActive now = true ↔ ∀ time, grant.expiresAt = some time → now < time := by
  unfold isActive
  cases grant.expiresAt <;> simp

theorem GrantQuery.isMatch_iff {query : GrantQuery} {grant : ResourceGrant} :
    query.isMatch grant = true ↔ grant.resourceType = query.resourceType ∧ grant.resourceId = query.resourceId ∧
      query.covers grant.holder = true ∧ grant.isActive query.now = true := by
  simp [isMatch, and_assoc]

theorem GrantQuery.covers_iff {query : GrantQuery} {holder : Holder} :
    query.covers holder = true ↔
      holder = ⟨.user, query.userId⟩ ∨ ∃ team ∈ query.teamIds, holder = ⟨.team, team⟩ := by
  obtain ⟨kind, id⟩ := holder
  cases kind <;> simp [covers, eq_comm]

/-- The condition of the relational query is the matching of grants. -/
theorem Database.selects_eq_isMatch (query : GrantQuery) (key : GrantKey) (expiresAt : Option Timestamp) :
    selects query key expiresAt = query.isMatch { key with expiresAt := expiresAt } := by
  obtain ⟨_, _, ⟨kind, _⟩, _⟩ := key
  rw [Bool.eq_iff_iff, GrantQuery.isMatch_iff, ResourceGrant.isActive_iff]
  cases kind <;> cases expiresAt <;> simp [selects, GrantQuery.covers] <;> grind

def Database.grants (tables : Database) : List ResourceGrant :=
  tables.resourcePermissions.toList.map fun (key, expiresAt) => { key with expiresAt := expiresAt }

namespace Database

variable {tables : Database} {query : GrantQuery} {grant : ResourceGrant}

theorem mem_grants : grant ∈ tables.grants ↔ tables.resourcePermissions[grant.toGrantKey]? = some grant.expiresAt := by
  rw [← Std.ExtTreeMap.mem_toList_iff_getElem?_eq_some, grants, List.mem_map]
  constructor
  · intro listed
    obtain ⟨_, row, rfl⟩ := listed
    exact row
  · exact fun row => ⟨_, row, rfl⟩

theorem keys_grants (tables : Database) :
    tables.grants.map ResourceGrant.toGrantKey = tables.resourcePermissions.toList.map Prod.fst := by
  rw [grants, List.map_map]
  rfl

theorem nodup_keys_grants (tables : Database) : (tables.grants.map ResourceGrant.toGrantKey).Nodup := by
  rw [keys_grants]
  exact nodup_keys _

theorem nodup_grants (tables : Database) : tables.grants.Nodup :=
  .of_map _ tables.nodup_keys_grants

theorem grantsFor_perm : (tables.grantsFor query).Perm (tables.grants.filter query.isMatch) := by
  refine (List.mergeSort_perm _ _).trans (.of_eq ?_)
  rw [grants, List.filter_map]
  refine congrArg _ (List.filter_congr fun row _ => ?_)
  exact selects_eq_isMatch query row.1 row.2

theorem mem_grantsFor : grant ∈ tables.grantsFor query ↔ grant ∈ tables.grants ∧ query.isMatch grant = true := by
  rw [grantsFor_perm.mem_iff, List.mem_filter]

/-- The parameters of the statement are enough for so many teams and for no more. -/
theorem refusal_eq_none_iff {teamIds : List TeamId} : refusal teamIds = none ↔ teamIds.length ≤ 32762 := by
  unfold refusal commonParameters parameterLimit
  split <;> simp <;> omega

theorem resourceGrants_eq_ok (taken : refusal query.teamIds = none) :
    tables.resourceGrants query = .ok (tables.grantsFor query) := by
  rw [resourceGrants, taken]

theorem resourceGrants_eq_error (many : ¬ query.teamIds.length ≤ 32762) :
    tables.resourceGrants query = .error (tooManyParameters query.teamIds.length) := by
  rw [resourceGrants, refusal, if_neg (by unfold commonParameters parameterLimit; omega)]

end Database

namespace MemoryStore

variable {grants : List ResourceGrant} {grant other : ResourceGrant} {key : GrantKey}

abbrev keys (grants : List ResourceGrant) : List GrantKey :=
  grants.map ResourceGrant.toGrantKey

/-- A key that is there stays where it is, and a new one comes last. -/
theorem keys_placeGrant (grant : ResourceGrant) (grants : List ResourceGrant) :
    keys (placeGrant grant grants) =
      if grant.toGrantKey ∈ keys grants then keys grants else keys grants ++ [grant.toGrantKey] := by
  induction grants with
  | nil => rfl
  | cons first rest ih =>
    unfold placeGrant
    by_cases same : first.toGrantKey = grant.toGrantKey
    · simp [same]
    · rw [if_neg same, keys, List.map_cons, ← keys, ih]
      by_cases later : grant.toGrantKey ∈ keys rest
      · have member : grant.toGrantKey ∈ keys (first :: rest) := List.mem_cons_of_mem _ later
        rw [if_pos later, if_pos member]
        rfl
      · have absent : grant.toGrantKey ∉ keys (first :: rest) := by
          intro member
          rcases List.mem_cons.mp member with isFirst | isLater
          · exact same isFirst.symm
          · exact later isLater
        rw [if_neg later, if_neg absent]
        rfl

theorem nodup_keys_placeGrant (distinct : (keys grants).Nodup) : (keys (placeGrant grant grants)).Nodup := by
  rw [keys_placeGrant]
  by_cases held : grant.toGrantKey ∈ keys grants
  · rwa [if_pos held]
  · rw [if_neg held]
    exact List.nodup_append.mpr ⟨distinct, by simp, by grind⟩

theorem mem_placeGrant (distinct : (keys grants).Nodup) :
    other ∈ placeGrant grant grants ↔
      other = grant ∨ other ∈ grants ∧ other.toGrantKey ≠ grant.toGrantKey := by
  induction grants with
  | nil => simp [placeGrant]
  | cons first rest ih =>
    obtain ⟨apart, distinct⟩ := List.nodup_cons.mp distinct
    have restApart : ∀ later ∈ rest, later.toGrantKey ≠ first.toGrantKey := by
      intro later member same
      exact apart (same ▸ List.mem_map_of_mem member)
    unfold placeGrant
    by_cases same : first.toGrantKey = grant.toGrantKey
    · rw [if_pos same]
      grind
    · rw [if_neg same, List.mem_cons, ih distinct]
      grind

theorem nodup_keys_filter (distinct : (keys grants).Nodup) (keep : ResourceGrant → Bool) :
    (keys (grants.filter keep)).Nodup :=
  distinct.sublist (List.filter_sublist.map _)

/-- Withdrawing a key counts one grant if there is one and else none. -/
theorem length_sub_length_filter (distinct : (keys grants).Nodup) :
    grants.length - (grants.filter fun grant => grant.toGrantKey ≠ key).length = if key ∈ keys grants then 1 else 0 := by
  induction grants with
  | nil => rfl
  | cons first rest ih =>
    obtain ⟨apart, distinct⟩ := List.nodup_cons.mp distinct
    have counted := ih distinct
    have bounded := List.length_filter_le (fun grant : ResourceGrant => decide (grant.toGrantKey ≠ key)) rest
    by_cases same : first.toGrantKey = key
    · have absent : key ∉ keys rest := same ▸ apart
      rw [if_neg absent] at counted
      have whole : key ∈ keys (first :: rest) := same ▸ List.mem_cons_self
      rw [if_pos whole, List.filter_cons_of_neg (by simp [same]), List.length_cons]
      omega
    · rw [List.filter_cons_of_pos (by simp [same]), List.length_cons, List.length_cons]
      have inherits : key ∈ keys (first :: rest) ↔ key ∈ keys rest := by
        simp [keys, Ne.symm same]
      simp only [inherits]
      omega

end MemoryStore

end AccessControl
