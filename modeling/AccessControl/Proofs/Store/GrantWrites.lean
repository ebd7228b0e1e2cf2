import AccessControl.Proofs.Store.Frame

namespace AccessControl

open Std

/-- Whether the grants of this key are asked for, as far as they have not expired. -/
def GrantQuery.Concerns (query : GrantQuery) (key : GrantKey) : Prop :=
  key.resourceType = query.resourceType ∧ key.resourceId = query.resourceId ∧ query.covers key.holder = true

theorem GrantQuery.not_isMatch {query : GrantQuery} {grant : ResourceGrant}
    (unconcerned : ¬ query.Concerns grant.toGrantKey) : query.isMatch grant = false := by
  rw [Bool.eq_false_iff, Ne, isMatch_iff]
  exact fun found => unconcerned ⟨found.1, found.2.1, found.2.2.1⟩

namespace MemoryStore

variable {store : MemoryStore} {grants : List ResourceGrant} {grant : ResourceGrant} {key : GrantKey}
  {keep : ResourceGrant → Bool} {query : GrantQuery} {change : Write}

theorem filter_placeGrant (skipped : ∀ other : ResourceGrant, other.toGrantKey = grant.toGrantKey → keep other = false) :
    (placeGrant grant grants).filter keep = grants.filter keep := by
  induction grants with
  | nil => simp [placeGrant, skipped grant rfl]
  | cons first rest ih =>
    unfold placeGrant
    by_cases same : first.toGrantKey = grant.toGrantKey
    · rw [if_pos same, List.filter_cons_of_neg (by simp [skipped grant rfl]),
        List.filter_cons_of_neg (by simp [skipped first same])]
    · rw [if_neg same, List.filter_cons, List.filter_cons, ih]

theorem resourceGrants_step (store : MemoryStore)
    (unconcerned : ∀ key, change.grantKey? = some key → ¬ query.Concerns key) :
    (Store.step store change).resourceGrants query = store.resourceGrants query := by
  have skipped : ∀ key, change.grantKey? = some key → ∀ other : ResourceGrant, other.toGrantKey = key →
      query.isMatch other = false :=
    fun key placed other same => GrantQuery.not_isMatch (same ▸ unconcerned key placed)
  rw [resourceGrants, (store.step_leaves change).grants, resourceGrants]
  cases change with
  | grant grant => exact filter_placeGrant (skipped grant.toGrantKey rfl)
  | revoke key =>
    rw [grantsAfter, List.filter_filter]
    refine List.filter_congr fun other _ => ?_
    by_cases same : other.toGrantKey = key
    · simp [skipped key rfl other same]
    · simp [same]
  | _ => rfl

theorem mem_placeGrant_self (grant : ResourceGrant) (grants : List ResourceGrant) : grant ∈ placeGrant grant grants := by
  induction grants with
  | nil => exact List.mem_cons_self
  | cons first rest ih =>
    unfold placeGrant
    split
    · exact List.mem_cons_self
    · exact List.mem_cons_of_mem _ ih

theorem mem_placeGrant_of_ne {other : ResourceGrant} (held : other ∈ grants)
    (apart : grant.toGrantKey ≠ other.toGrantKey) : other ∈ placeGrant grant grants := by
  induction grants with
  | nil => cases held
  | cons first rest ih =>
    unfold placeGrant
    rcases List.mem_cons.mp held with rfl | later
    · rw [if_neg apart.symm]
      exact List.mem_cons_self
    · split
      · exact List.mem_cons_of_mem _ later
      · exact List.mem_cons_of_mem _ (ih later)

theorem grant_placed (store : MemoryStore) (grant : ResourceGrant) :
    grant ∈ (Store.step store (.grant grant)).grants :=
  mem_placeGrant_self grant store.grants

theorem grant_kept (store : MemoryStore) (held : grant ∈ store.grants)
    (apart : change.grantKey? ≠ some grant.toGrantKey) : grant ∈ (Store.step store change).grants := by
  rw [(store.step_leaves change).grants]
  cases change with
  | grant placed => exact mem_placeGrant_of_ne held fun same => apart (congrArg some same)
  | revoke key =>
    have other : grant.toGrantKey ≠ key := fun same => apart (congrArg some same.symm)
    exact List.mem_filter.mpr ⟨held, by simpa using other⟩
  | _ => exact held

end MemoryStore

namespace Database

variable {tables : Database} {query : GrantQuery} {change : Write}

theorem grantsFor_congr {left right : Database}
    (same : ∀ (key : GrantKey) (expiresAt : Option Timestamp), selects query key expiresAt = true →
      (left.resourcePermissions[key]? = some expiresAt ↔ right.resourcePermissions[key]? = some expiresAt)) :
    left.grantsFor query = right.grantsFor query := by
  have selected : left.resourcePermissions.filter (selects query) = right.resourcePermissions.filter (selects query) := by
    refine ExtTreeMap.ext_getElem? fun key => Option.ext fun expiresAt => ?_
    rw [ExtTreeMap.getElem?_filter', ExtTreeMap.getElem?_filter', Option.filter_eq_some_iff, Option.filter_eq_some_iff]
    exact and_congr_left fun chosen => same key expiresAt chosen
  have listed := congrArg ExtTreeMap.toList selected
  rw [ExtTreeMap.toList_filter, ExtTreeMap.toList_filter] at listed
  rw [grantsFor, listed, grantsFor]

theorem grantsFor_step (tables : Database)
    (unconcerned : ∀ key, change.grantKey? = some key → ¬ query.Concerns key) :
    (Store.step tables change).grantsFor query = tables.grantsFor query := by
  refine grantsFor_congr fun key expiresAt chosen => ?_
  have apart : change.grantKey? ≠ some key := by
    intro placed
    rw [selects_eq_isMatch, GrantQuery.not_isMatch (unconcerned key placed)] at chosen
    cases chosen
  rw [(tables.step_leaves change).resourcePermissions]
  cases change with
  | grant grant =>
    have other : grant.toGrantKey ≠ key := fun same => apart (congrArg some same)
    rw [grantsAfter, ExtTreeMap.getElem?_insert, if_neg (by simpa using other)]
  | revoke withdrawn =>
    have other : withdrawn ≠ key := fun same => apart (congrArg some same)
    rw [grantsAfter, ExtTreeMap.getElem?_erase, if_neg (by simpa using other)]
  | _ => exact Iff.rfl

theorem grant_placed (tables : Database) (grant : ResourceGrant) :
    grant ∈ (Store.step tables (.grant grant)).grants := by
  rw [mem_grants, (tables.step_leaves _).resourcePermissions, grantsAfter, ExtTreeMap.getElem?_insert_self]

theorem grant_kept {grant : ResourceGrant} (tables : Database) (held : grant ∈ tables.grants)
    (apart : change.grantKey? ≠ some grant.toGrantKey) : grant ∈ (Store.step tables change).grants := by
  rw [mem_grants] at held ⊢
  rw [(tables.step_leaves change).resourcePermissions]
  cases change with
  | grant placed =>
    have other : placed.toGrantKey ≠ grant.toGrantKey := fun same => apart (congrArg some same)
    rw [grantsAfter, ExtTreeMap.getElem?_insert, if_neg (by simpa using other), held]
  | revoke key =>
    have other : key ≠ grant.toGrantKey := fun same => apart (congrArg some same)
    rw [grantsAfter, ExtTreeMap.getElem?_erase, if_neg (by simpa using other), held]
  | _ => exact held

end Database

end AccessControl
