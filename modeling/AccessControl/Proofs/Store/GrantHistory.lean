import Mathlib.Data.List.Induction
import AccessControl.Proofs.Store.GrantWrites

/-!
The grants on resources as a map that writes leave behind. A key stands for the expiry that was granted last, unless it
has been withdrawn since; a query finds each grant once that matches it, in memory in the order in which the keys came
to be held and in tables in the order of their columns.
-/

namespace AccessControl

open Std

/-- The last of these writes that places or withdraws the grant of this key. -/
def lastAbout (changes : List Write) (key : GrantKey) : Option Write :=
  (changes.filter fun change => change.grantKey? = some key).getLast?

def Held (changes : List Write) (key : GrantKey) : Prop :=
  ∃ grant, lastAbout changes key = some (.grant grant)

/-- The key was granted by the write at this place, was not held then, and has not been withdrawn since. -/
structure HeldSince (changes : List Write) (key : GrantKey) (place : Nat) : Prop where
  granted : ∃ grant, changes[place]? = some (.grant grant) ∧ grant.toGrantKey = key
  new : ¬ Held (changes.take place) key
  kept : .revoke key ∉ changes.drop (place + 1)

section

variable {changes : List Write} {change : Write} {grant : ResourceGrant} {key : GrantKey} {place other : Nat}

theorem lastAbout_append :
    lastAbout (changes ++ [change]) key =
      if change.grantKey? = some key then some change else lastAbout changes key := by
  by_cases about : change.grantKey? = some key
  · simp [lastAbout, about]
  · simp [lastAbout, about]

theorem held_append_of_about (about : change.grantKey? = some key) :
    Held (changes ++ [change]) key ↔ ∃ grant, change = .grant grant := by
  simp [Held, lastAbout_append, about]

theorem held_append_of_other (other : change.grantKey? ≠ some key) :
    Held (changes ++ [change]) key ↔ Held changes key := by
  simp [Held, lastAbout_append, other]

theorem granted_of_about (about : change.grantKey? = some key) (kept : change ≠ .revoke key) :
    ∃ grant, change = .grant grant ∧ grant.toGrantKey = key := by
  cases change with
  | grant grant => exact ⟨grant, rfl, Option.some.inj about⟩
  | revoke withdrawn =>
    obtain rfl : withdrawn = key := Option.some.inj about
    exact absurd rfl kept
  | _ => cases about

theorem HeldSince.lt_length (since : HeldSince changes key place) : place < changes.length := by
  obtain ⟨_, found, _⟩ := since.granted
  exact (List.getElem?_eq_some_iff.mp found).1

/-- A key that was not held is held since it is granted. -/
theorem heldSince_granted (new : ¬ Held changes grant.toGrantKey) :
    HeldSince (changes ++ [.grant grant]) grant.toGrantKey changes.length where
  granted := ⟨grant, by simp, rfl⟩
  new := by rwa [List.take_left]
  kept := by simp

theorem HeldSince.append (since : HeldSince changes key place) (kept : change ≠ .revoke key) :
    HeldSince (changes ++ [change]) key place where
  granted := by
    rw [List.getElem?_append_left since.lt_length]
    exact since.granted
  new := by
    rw [List.take_append_of_le_length (Nat.le_of_lt since.lt_length)]
    exact since.new
  kept := by
    rw [List.drop_append_of_le_length since.lt_length, List.mem_append, List.mem_singleton]
    exact not_or.mpr ⟨since.kept, kept.symm⟩

/-- What is held since some write has been held since before the last one, or the last one began it. -/
theorem HeldSince.of_append (since : HeldSince (changes ++ [change]) key place) :
    place = changes.length ∧ ¬ Held changes key ∨ change ≠ .revoke key ∧ HeldSince changes key place := by
  have bound := since.lt_length
  rw [List.length_append, List.length_singleton] at bound
  rcases Nat.eq_or_lt_of_le (Nat.le_of_lt_succ bound) with rfl | earlier
  · have new := since.new
    rw [List.take_left] at new
    exact .inl ⟨rfl, new⟩
  · have granted := since.granted
    have new := since.new
    have kept := since.kept
    rw [List.getElem?_append_left earlier] at granted
    rw [List.take_append_of_le_length (Nat.le_of_lt earlier)] at new
    rw [List.drop_append_of_le_length earlier, List.mem_append, List.mem_singleton, not_or] at kept
    exact .inr ⟨Ne.symm kept.2, granted, new, kept.1⟩

theorem HeldSince.held (since : HeldSince changes key place) : Held changes key := by
  induction changes using List.reverseRecOn with
  | nil => exact absurd since.lt_length (Nat.not_lt_zero _)
  | append_singleton changes change ih =>
    rcases since.of_append with ⟨rfl, _⟩ | ⟨kept, earlier⟩
    · obtain ⟨grant, found, same⟩ := since.granted
      obtain rfl : change = .grant grant := by simpa using found
      have about : Write.grantKey? (.grant grant) = some key := congrArg some same
      exact (held_append_of_about about).mpr ⟨grant, rfl⟩
    · by_cases about : change.grantKey? = some key
      · obtain ⟨grant, rfl, _⟩ := granted_of_about about kept
        exact (held_append_of_about about).mpr ⟨grant, rfl⟩
      · exact (held_append_of_other about).mpr (ih earlier)

theorem HeldSince.unique (since : HeldSince changes key place) (again : HeldSince changes key other) :
    place = other := by
  induction changes using List.reverseRecOn with
  | nil => exact absurd since.lt_length (Nat.not_lt_zero _)
  | append_singleton changes change ih =>
    rcases since.of_append with ⟨rfl, new⟩ | ⟨_, since⟩
    · rcases again.of_append with ⟨rfl, _⟩ | ⟨_, again⟩
      · rfl
      · exact absurd again.held new
    · rcases again.of_append with ⟨_, new⟩ | ⟨_, again⟩
      · exact absurd since.held new
      · exact ih since again

end

/-- Gives a grant of the same key the expiry of this one. -/
def ResourceGrant.extend (grant other : ResourceGrant) : ResourceGrant :=
  if other.toGrantKey = grant.toGrantKey then { other with expiresAt := grant.expiresAt } else other

/-- A store whose grants have keys, and what each write does to them. -/
class GrantStore (σ : Type) [Store σ] where
  grants : σ → List ResourceGrant
  grants_empty : grants Store.empty = []
  /-- What has to hold for a key to stand for one grant. -/
  Keyed : σ → Prop
  keyed_empty : Keyed Store.empty
  distinct : ∀ store, Keyed store → ((grants store).map ResourceGrant.toGrantKey).Nodup
  keyed_step : ∀ store change, Keyed store → Keyed (Store.step store change)
  mem_step : ∀ store change grant, Keyed store →
    (grant ∈ grants (Store.step store change) ↔
      if Write.grantKey? change = some grant.toGrantKey then change = .grant grant else grant ∈ grants store)
  receipt_grant : ∀ (store : σ) grant, Store.receipt store (.grant grant) = some .done
  regrant : ∀ store grant, Keyed store → grant.toGrantKey ∈ (grants store).map ResourceGrant.toGrantKey →
    grants (Store.step store (.grant grant)) = (grants store).map grant.extend
  receipt_revoke : ∀ store key, Keyed store → Store.receipt store (.revoke key) =
    some (.count (if key ∈ (grants store).map ResourceGrant.toGrantKey then 1 else 0))
  revoke : ∀ store key, grants (Store.step store (.revoke key)) = (grants store).filter fun grant => grant.toGrantKey ≠ key
  revoke_absent : ∀ store key, key ∉ (grants store).map ResourceGrant.toGrantKey → Store.step store (.revoke key) = store

namespace MemoryStore

variable {store : MemoryStore} {grants : List ResourceGrant} {grant : ResourceGrant} {key : GrantKey}

theorem keys_nodup_step (store : MemoryStore) (change : Write) (distinct : (keys store.grants).Nodup) :
    (keys (Store.step store change).grants).Nodup := by
  rw [(store.step_leaves change).grants]
  cases change with
  | grant grant => exact nodup_keys_placeGrant distinct
  | revoke key => exact nodup_keys_filter distinct _
  | _ => exact distinct

theorem mem_grants_step (store : MemoryStore) (change : Write) (grant : ResourceGrant)
    (distinct : (keys store.grants).Nodup) :
    grant ∈ (Store.step store change).grants ↔
      if change.grantKey? = some grant.toGrantKey then change = .grant grant else grant ∈ store.grants := by
  rw [(store.step_leaves change).grants]
  cases change with
  | grant placed =>
    rw [grantsAfter, mem_placeGrant distinct]
    by_cases same : placed.toGrantKey = grant.toGrantKey
    · simp [Write.grantKey?, same, eq_comm]
    · have other : grant ≠ placed := fun equal => same (congrArg ResourceGrant.toGrantKey equal.symm)
      simp [Write.grantKey?, same, Ne.symm same, other]
  | revoke key =>
    by_cases same : key = grant.toGrantKey
    · simp [grantsAfter, Write.grantKey?, same]
    · simp [grantsAfter, Write.grantKey?, same, Ne.symm same]
  | _ => simp [grantsAfter, Write.grantKey?]

theorem placeGrant_eq_map (distinct : (keys grants).Nodup) (held : grant.toGrantKey ∈ keys grants) :
    placeGrant grant grants = grants.map grant.extend := by
  induction grants with
  | nil => cases held
  | cons first rest ih =>
    obtain ⟨apart, distinct⟩ := List.nodup_cons.mp distinct
    unfold placeGrant
    by_cases same : first.toGrantKey = grant.toGrantKey
    · have others : rest.map grant.extend = rest := by
        refine (List.map_congr_left fun other member => ?_).trans (List.map_id _)
        have different : other.toGrantKey ≠ grant.toGrantKey :=
          fun equal => apart (List.mem_map.mpr ⟨other, member, equal.trans same.symm⟩)
        rw [ResourceGrant.extend, if_neg different, id]
      have replaced : grant.extend first = grant := by
        rw [ResourceGrant.extend, if_pos same, same]
      rw [if_pos same, List.map_cons, others, replaced]
    · have later : grant.toGrantKey ∈ keys rest := (List.mem_cons.mp held).resolve_left (Ne.symm same)
      rw [if_neg same, List.map_cons, ih distinct later, ResourceGrant.extend, if_neg same]

theorem filter_of_absent (absent : key ∉ keys grants) :
    (grants.filter fun grant => grant.toGrantKey ≠ key) = grants := by
  rw [List.filter_eq_self]
  intro grant member
  have different : grant.toGrantKey ≠ key := fun same => absent (same ▸ List.mem_map_of_mem member)
  simpa using different

instance : GrantStore MemoryStore where
  grants := MemoryStore.grants
  grants_empty := rfl
  Keyed store := (keys store.grants).Nodup
  keyed_empty := List.nodup_nil
  distinct _ distinct := distinct
  keyed_step := keys_nodup_step
  mem_step := mem_grants_step
  receipt_grant _ _ := rfl
  regrant _ _ distinct held := placeGrant_eq_map distinct held
  receipt_revoke store key distinct := by
    rw [Store.receipt]
    exact congrArg (fun number => some (Receipt.count number)) (length_sub_length_filter distinct)
  revoke _ _ := rfl
  revoke_absent store key absent := congrArg (fun grants => { store with grants }) (filter_of_absent absent)

end MemoryStore

namespace Database

variable {tables : Database} {grant : ResourceGrant} {key : GrantKey}

theorem mem_keys_grants : key ∈ tables.grants.map ResourceGrant.toGrantKey ↔ key ∈ tables.resourcePermissions := by
  rw [keys_grants, ← ExtTreeMap.isSome_getElem?_iff_mem, Option.isSome_iff_exists, List.mem_map]
  simp [ExtTreeMap.mem_toList_iff_getElem?_eq_some]

theorem mem_grants_step (tables : Database) (change : Write) (grant : ResourceGrant) :
    grant ∈ (Store.step tables change).grants ↔
      if change.grantKey? = some grant.toGrantKey then change = .grant grant else grant ∈ tables.grants := by
  rw [mem_grants, mem_grants, (tables.step_leaves change).resourcePermissions]
  cases change with
  | grant placed =>
    rw [grantsAfter, ExtTreeMap.getElem?_insert]
    by_cases same : placed.toGrantKey = grant.toGrantKey
    · obtain ⟨key, expiresAt⟩ := grant
      obtain ⟨_, placedUntil⟩ := placed
      simp only at same
      subst same
      simp [Write.grantKey?]
    · simp [Write.grantKey?, same]
  | revoke key =>
    rw [grantsAfter, ExtTreeMap.getElem?_erase]
    by_cases same : key = grant.toGrantKey
    · simp [Write.grantKey?, same]
    · simp [Write.grantKey?, same]
  | _ => simp [grantsAfter, Write.grantKey?]

theorem grants_regrant (tables : Database) (grant : ResourceGrant)
    (held : grant.toGrantKey ∈ tables.grants.map ResourceGrant.toGrantKey) :
    (Store.step tables (.grant grant)).grants = tables.grants.map grant.extend := by
  rw [mem_keys_grants] at held
  have found := ExtTreeMap.getElem?_eq_some_getElem held
  have extended : (Store.step tables (.grant grant)).resourcePermissions =
      tables.resourcePermissions.map fun key expiresAt => if key = grant.toGrantKey then grant.expiresAt else expiresAt :=
    insert_eq_map found fun _ => grant.expiresAt
  rw [grants, grants, extended, ExtTreeMap.toList_map, List.map_map, List.map_map]
  refine List.map_congr_left fun row _ => ?_
  by_cases same : row.1 = grant.toGrantKey
  · simp [ResourceGrant.extend, same]
  · simp [ResourceGrant.extend, same]

theorem grants_revoke (tables : Database) (key : GrantKey) :
    (Store.step tables (.revoke key)).grants = tables.grants.filter fun grant => grant.toGrantKey ≠ key := by
  have withdrawn : (Store.step tables (.revoke key)).resourcePermissions =
      tables.resourcePermissions.filter fun other _ => other ≠ key := erase_eq_filter _ key
  rw [grants, grants, withdrawn, ExtTreeMap.toList_filter, List.filter_map]
  rfl

theorem revoke_absent (tables : Database) (key : GrantKey)
    (absent : key ∉ tables.grants.map ResourceGrant.toGrantKey) : Store.step tables (.revoke key) = tables := by
  rw [mem_keys_grants] at absent
  have kept : tables.resourcePermissions.erase key = tables.resourcePermissions := by
    refine ExtTreeMap.ext_getElem? fun other => ?_
    rw [ExtTreeMap.getElem?_erase]
    split
    · next same =>
      rw [Std.compare_eq_iff_eq] at same
      subst same
      simpa using absent
    · rfl
  exact congrArg (fun resourcePermissions => { tables with resourcePermissions }) kept

instance : GrantStore Database where
  grants := Database.grants
  grants_empty := rfl
  Keyed _ := True
  keyed_empty := trivial
  distinct tables _ := tables.nodup_keys_grants
  keyed_step _ _ _ := trivial
  mem_step tables change grant _ := tables.mem_grants_step change grant
  receipt_grant _ _ := rfl
  regrant tables grant _ := tables.grants_regrant grant
  receipt_revoke tables key _ := by
    simp only [mem_keys_grants]
    rfl
  revoke := grants_revoke
  revoke_absent := revoke_absent

end Database

section

open Store GrantStore

variable [Store σ] [GrantStore σ] {changes : List Write} {change : Write} {grant : ResourceGrant} {key : GrantKey}

theorem keyed_after (changes : List Write) : Keyed (after empty changes : σ) :=
  after_keeps (fun change _ store => keyed_step store change) keyed_empty

/-- A grant is held if the last write about its key placed it. -/
theorem mem_grants_after (changes : List Write) (grant : ResourceGrant) :
    grant ∈ grants (after empty changes : σ) ↔ lastAbout changes grant.toGrantKey = some (.grant grant) := by
  induction changes using List.reverseRecOn with
  | nil =>
    have none : grants (after empty [] : σ) = [] := grants_empty
    simp [none, lastAbout]
  | append_singleton changes change ih =>
    rw [after_append, mem_step _ _ _ (keyed_after changes), lastAbout_append]
    split
    · exact Option.some_inj.symm
    · exact ih

theorem key_of_lastAbout (last : lastAbout changes key = some (.grant grant)) : grant.toGrantKey = key := by
  have about := (List.mem_filter.mp (List.mem_of_getLast? last)).2
  exact Option.some.inj (of_decide_eq_true about)

theorem mem_keys_after :
    key ∈ (grants (after empty changes : σ)).map ResourceGrant.toGrantKey ↔ Held changes key := by
  rw [List.mem_map]
  constructor
  · rintro ⟨grant, held, rfl⟩
    exact ⟨grant, (mem_grants_after changes grant).mp held⟩
  · rintro ⟨grant, last⟩
    have same := key_of_lastAbout last
    exact ⟨grant, (mem_grants_after changes grant).mpr (same ▸ last), same⟩

end

/-- Both keys are held, the first since an earlier write than the second. -/
def HeldBefore (changes : List Write) (first second : GrantKey) : Prop :=
  ∃ place later, HeldSince changes first place ∧ HeldSince changes second later ∧ place < later

/-- These keys stand in the order in which they came to be held. -/
structure Arranged (changes : List Write) (keys : List GrantKey) : Prop where
  since : ∀ key ∈ keys, ∃ place, HeldSince changes key place
  ordered : keys.Pairwise (HeldBefore changes)

namespace Arranged

variable {changes : List Write} {change : Write} {keys kept : List GrantKey} {grant : ResourceGrant}

theorem keep (arranged : Arranged changes keys) (sublist : kept.Sublist keys)
    (unrevoked : ∀ key ∈ kept, change ≠ .revoke key) : Arranged (changes ++ [change]) kept where
  since key member := by
    obtain ⟨place, since⟩ := arranged.since key (sublist.mem member)
    exact ⟨place, since.append (unrevoked key member)⟩
  ordered := by
    refine (arranged.ordered.sublist sublist).imp_of_mem fun {first second} inFirst inSecond before => ?_
    obtain ⟨place, later, since, sinceLater, less⟩ := before
    exact ⟨place, later, since.append (unrevoked first inFirst), sinceLater.append (unrevoked second inSecond), less⟩

theorem add (arranged : Arranged changes keys) (new : ¬ Held changes grant.toGrantKey) :
    Arranged (changes ++ [.grant grant]) (keys ++ [grant.toGrantKey]) := by
  have old : Arranged (changes ++ [.grant grant]) keys := arranged.keep (.refl keys) fun _ _ => by simp
  have last := heldSince_granted new
  refine ⟨List.forall_mem_append.mpr ⟨old.since, List.forall_mem_singleton.mpr ⟨_, last⟩⟩, ?_⟩
  refine List.pairwise_append.mpr ⟨old.ordered, List.pairwise_singleton _ _, fun key member other isLast => ?_⟩
  obtain rfl := List.mem_singleton.mp isLast
  obtain ⟨place, since⟩ := arranged.since key member
  exact ⟨place, changes.length, since.append (by simp), last, since.lt_length⟩

end Arranged

theorem MemoryStore.arranged_after (changes : List Write) :
    Arranged changes (keys (Store.after Store.empty changes : MemoryStore).grants) := by
  induction changes using List.reverseRecOn with
  | nil => exact ⟨by simp [Store.after, Store.empty, empty], .nil⟩
  | append_singleton changes change ih =>
    rw [Store.after_append, (step_leaves _ change).grants]
    cases change with
    | grant grant =>
      rw [grantsAfter, keys_placeGrant]
      split
      · exact ih.keep (.refl _) fun _ _ => by simp
      · next unheld =>
        have held := @mem_keys_after MemoryStore _ _ changes grant.toGrantKey
        exact ih.add (mt held.mpr unheld)
    | revoke key =>
      refine ih.keep (List.filter_sublist.map _) fun other member => ?_
      obtain ⟨grant, kept, rfl⟩ := List.mem_map.mp member
      have different : grant.toGrantKey ≠ key := by simpa using (List.mem_filter.mp kept).2
      exact fun same => different (Write.revoke.inj same).symm
    | _ => exact ih.keep (.refl _) fun _ _ => by simp

namespace Database

def ListedBefore (first second : ResourceGrant) : Prop :=
  compareOn listingColumns first second = .lt

/-- Grants on one resource are told apart by the columns that order them. -/
theorem key_eq_of_listingColumns {first second : ResourceGrant} (sameType : first.resourceType = second.resourceType)
    (sameId : first.resourceId = second.resourceId) (same : listingColumns first = listingColumns second) :
    first.toGrantKey = second.toGrantKey := by
  simp only [listingColumns, List.cons.injEq, and_true] at same
  refine Row.columns_inj ?_
  simp only [Row.columns, sameType, sameId, same]

theorem nodup_keys_grantsFor (tables : Database) (query : GrantQuery) :
    ((tables.grantsFor query).map ResourceGrant.toGrantKey).Nodup := by
  rw [(grantsFor_perm.map _).nodup_iff]
  exact tables.nodup_keys_grants.sublist (List.filter_sublist.map _)

theorem grantsFor_ascending (tables : Database) (query : GrantQuery) :
    (tables.grantsFor query).Pairwise ListedBefore := by
  have total : ∀ first second, ((compareOn listingColumns first second).isLE ||
      (compareOn listingColumns second first).isLE) = true := by
    intro first second
    have swapped : compareOn listingColumns first second = (compareOn listingColumns second first).swap :=
      OrientedCmp.eq_swap
    rw [swapped]
    cases compareOn listingColumns second first <;> rfl
  have ordered : (tables.grantsFor query).Pairwise fun first second =>
      (compareOn listingColumns first second).isLE = true :=
    List.pairwise_mergeSort (fun _ _ _ => TransCmp.isLE_trans) total _
  have distinct := List.pairwise_map.mp (tables.nodup_keys_grantsFor query)
  refine (ordered.and distinct).imp_of_mem fun {first second} inFirst inSecond both => ?_
  obtain ⟨firstType, firstId, _⟩ := GrantQuery.isMatch_iff.mp (mem_grantsFor.mp inFirst).2
  obtain ⟨secondType, secondId, _⟩ := GrantQuery.isMatch_iff.mp (mem_grantsFor.mp inSecond).2
  rcases Ordering.isLE_iff_eq_lt_or_eq_eq.mp both.1 with less | same
  · exact less
  · have sameColumns : listingColumns first = listingColumns second := LawfulEqCmp.eq_of_compare same
    exact absurd (key_eq_of_listingColumns (firstType.trans secondType.symm) (firstId.trans secondId.symm) sameColumns) both.2

/-- In that order there is only one list of what matches. -/
theorem grantsFor_eq {tables : Database} {query : GrantQuery} {found : List ResourceGrant}
    (ordered : found.Pairwise ListedBefore)
    (matching : ∀ grant, grant ∈ found ↔ grant ∈ tables.grants ∧ query.isMatch grant = true) :
    tables.grantsFor query = found :=
  eq_of_ascending_by listingColumns (tables.grantsFor_ascending query) ordered fun grant =>
    mem_grantsFor.trans (matching grant).symm

end Database

/-- What a store keeps of these writes about grants, and what it answers to more of them and to queries. A query is
answered if there is room for the teams that it names. -/
structure Store.GrantsFollow [Store σ] [GrantStore σ] (store : σ) (changes : List Write)
    (order : ResourceGrant → ResourceGrant → Prop) (room : List TeamId → Prop) : Prop where
  mem_iff : ∀ grant, grant ∈ GrantStore.grants store ↔ lastAbout changes grant.toGrantKey = some (.grant grant)
  distinct : ((GrantStore.grants store).map ResourceGrant.toGrantKey).Nodup
  granted : ∀ grant, receipt store (.grant grant) = some .done
  regranted : ∀ grant, grant.toGrantKey ∈ (GrantStore.grants store).map ResourceGrant.toGrantKey →
    GrantStore.grants (step store (.grant grant)) = (GrantStore.grants store).map grant.extend
  revoked : ∀ key, receipt store (.revoke key) =
      some (.count (if key ∈ (GrantStore.grants store).map ResourceGrant.toGrantKey then 1 else 0)) ∧
    GrantStore.grants (step store (.revoke key)) =
      (GrantStore.grants store).filter fun grant => grant.toGrantKey ≠ key
  unheld : ∀ key, key ∉ (GrantStore.grants store).map ResourceGrant.toGrantKey → step store (.revoke key) = store
  queried : ∀ query, room query.teamIds → ∃ found, resourceGrants store query = .ok found ∧ found.Nodup ∧
    (∀ grant, grant ∈ found ↔ grant ∈ GrantStore.grants store ∧ query.isMatch grant = true) ∧ found.Pairwise order
  refused : ∀ query, ¬ room query.teamIds → ∃ cause, resourceGrants store query = .error (.database cause)

theorem Store.grantsFollow_after [Store σ] [GrantStore σ] {order : ResourceGrant → ResourceGrant → Prop}
    {room : List TeamId → Prop} (changes : List Write)
    (found : ∀ query, room query.teamIds → ∃ found, resourceGrants (after empty changes : σ) query = .ok found ∧
      found.Perm ((GrantStore.grants (after empty changes : σ)).filter query.isMatch) ∧ found.Pairwise order)
    (refused : ∀ query, ¬ room query.teamIds →
      ∃ cause, resourceGrants (after empty changes : σ) query = .error (.database cause)) :
    GrantsFollow (after empty changes : σ) changes order room := by
  have keyed : GrantStore.Keyed (after empty changes : σ) := keyed_after changes
  have distinct := GrantStore.distinct _ keyed
  refine
    { mem_iff := mem_grants_after changes
      distinct
      granted := GrantStore.receipt_grant _
      regranted := fun grant => GrantStore.regrant _ grant keyed
      revoked := fun key => ⟨GrantStore.receipt_revoke _ key keyed, GrantStore.revoke _ key⟩
      unheld := GrantStore.revoke_absent _
      queried := fun query few => ?_
      refused }
  obtain ⟨list, answered, perm, ordered⟩ := found query few
  refine ⟨list, answered, ?_, fun grant => perm.mem_iff.trans List.mem_filter, ordered⟩
  exact perm.nodup_iff.mpr ((List.Nodup.of_map _ distinct).filter _)

/-- In every run the grants of a store are the map from keys to the expiries that were granted last and not withdrawn,
and a query finds what matches in it, each grant once and in the order of the store. The tables can be asked about so
many teams at most, repetitions counted. -/
theorem Store.grants_follow_history (changes : List Write) :
    GrantsFollow (after empty changes : MemoryStore) changes
      (fun first second => HeldBefore changes first.toGrantKey second.toGrantKey) (fun _ => True) ∧
    GrantsFollow (after empty changes : Database) changes Database.ListedBefore (fun teamIds => teamIds.length ≤ 32762) ∧
    ∀ key place other, HeldSince changes key place → HeldSince changes key other → place = other := by
  refine ⟨grantsFollow_after changes (fun query _ => ?_) fun query none => absurd trivial none,
    grantsFollow_after changes (fun query few => ?_) fun query many => ?_, fun key place other => HeldSince.unique⟩
  · refine ⟨_, rfl, .refl _, ?_⟩
    exact (List.pairwise_map.mp (MemoryStore.arranged_after changes).ordered).filter _
  · exact ⟨_, Database.resourceGrants_eq_ok (Database.refusal_eq_none_iff.mpr few), Database.grantsFor_perm,
      Database.grantsFor_ascending _ query⟩
  · exact ⟨_, Database.resourceGrants_eq_error many⟩

/-- A grant is in the tables and matches the query, but the query names one team more than they can be asked about. -/
theorem Store.query_refused :
    let granted : ResourceGrant := ⟨⟨"doc", "7", ⟨.user, "ann"⟩, "edit"⟩, none⟩
    let query : GrantQuery := ⟨"doc", "7", "ann", List.replicate 32763 "writers", 0⟩
    query.isMatch granted = true ∧
      granted ∈ (after empty [.grant granted] : Database).grants ∧
      resourceGrants (after empty [.grant granted] : Database) query = .error (Database.tooManyParameters 32763) ∧
      resourceGrants (after empty [.grant granted] : MemoryStore) query = .ok [granted] := by
  intro granted query
  have found : query.isMatch granted = true :=
    GrantQuery.isMatch_iff.mpr ⟨rfl, rfl, GrantQuery.covers_iff.mpr (.inl rfl), rfl⟩
  have teams : query.teamIds.length = 32763 := List.length_replicate
  refine ⟨found, Database.grant_placed _ granted, ?_, ?_⟩
  · exact (Database.resourceGrants_eq_error (by omega)).trans (by rw [teams])
  · exact congrArg Except.ok (List.filter_cons_of_pos found)

/-- The grant to the user is granted once more, and that to the team of the same name is withdrawn in between. -/
def lending : List Write :=
  [.grant ⟨⟨"doc", "7", ⟨.user, "ann"⟩, "edit"⟩, some 9⟩, .grant ⟨⟨"doc", "7", ⟨.team, "ann"⟩, "audit"⟩, none⟩,
    .revoke ⟨"doc", "7", ⟨.team, "ann"⟩, "audit"⟩, .grant ⟨⟨"doc", "7", ⟨.user, "ann"⟩, "edit"⟩, none⟩,
    .grant ⟨⟨"doc", "7", ⟨.team, "ann"⟩, "audit"⟩, some 20⟩, .revoke ⟨"doc", "7", ⟨.user, "bob"⟩, "edit"⟩]

/-- The user's grant is held since it was granted first, and the team's since it was granted again. -/
theorem lending_found :
    lastAbout lending ⟨"doc", "7", ⟨.user, "ann"⟩, "edit"⟩ =
        some (.grant ⟨⟨"doc", "7", ⟨.user, "ann"⟩, "edit"⟩, none⟩) ∧
      HeldSince lending ⟨"doc", "7", ⟨.user, "ann"⟩, "edit"⟩ 0 ∧
      (∀ place, HeldSince lending ⟨"doc", "7", ⟨.user, "ann"⟩, "edit"⟩ place → place = 0) ∧
      (Store.after Store.empty lending : MemoryStore).resourceGrants ⟨"doc", "7", "ann", ["ann", "ann"], 10⟩ =
        [⟨⟨"doc", "7", ⟨.user, "ann"⟩, "edit"⟩, none⟩, ⟨⟨"doc", "7", ⟨.team, "ann"⟩, "audit"⟩, some 20⟩] ∧
      (Store.after Store.empty lending : Database).resourceGrants ⟨"doc", "7", "ann", ["ann", "ann"], 10⟩ =
        .ok [⟨⟨"doc", "7", ⟨.team, "ann"⟩, "audit"⟩, some 20⟩, ⟨⟨"doc", "7", ⟨.user, "ann"⟩, "edit"⟩, none⟩] ∧
      Store.step (Store.after Store.empty lending : Database) (.revoke ⟨"doc", "7", ⟨.user, "bob"⟩, "edit"⟩) =
        Store.after Store.empty lending := by
  obtain ⟨inMemory, inTables, unique⟩ := Store.grants_follow_history lending
  have since : HeldSince lending ⟨"doc", "7", ⟨.user, "ann"⟩, "edit"⟩ 0 :=
    ⟨⟨_, rfl, rfl⟩, by simp [Held, lastAbout], by simp [lending]⟩
  have matching : (Store.after Store.empty lending : Database).grants.filter
      (GrantQuery.isMatch ⟨"doc", "7", "ann", ["ann", "ann"], 10⟩) =
      [⟨⟨"doc", "7", ⟨.team, "ann"⟩, "audit"⟩, some 20⟩, ⟨⟨"doc", "7", ⟨.user, "ann"⟩, "edit"⟩, none⟩] := by
    decide
  refine ⟨(inMemory.mem_iff ⟨_, none⟩).mp (by decide), since, fun place => ?_, by decide, ?_, ?_⟩
  · exact fun other => unique _ place 0 other since
  · refine congrArg Except.ok (Database.grantsFor_eq (List.pairwise_pair.mpr ?_) fun grant => ?_)
    · exact (by decide : compare ["audit", "team", "ann"] ["edit", "user", "ann"] = .lt)
    · rw [← matching, List.mem_filter]
  · exact inTables.unheld _ (by decide)

end AccessControl
