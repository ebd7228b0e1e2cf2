import Mathlib.Data.List.Forall2
import AccessControl.Proofs.Store.Frame
import AccessControl.Proofs.Store.Reads

namespace AccessControl

open Std

theorem mapM_eq_ok_iff {read : α → Except ε β} {entries : List α} {values : List β} :
    entries.mapM read = .ok values ↔ List.Forall₂ (fun entry value => read entry = .ok value) entries values := by
  induction entries generalizing values with
  | nil => cases values <;> simp [Pure.pure, Except.pure]
  | cons entry rest ih =>
    rw [List.mapM_cons, List.forall₂_cons_left_iff]
    simp only [← ih]
    cases read entry with
    | error _ => simp [Bind.bind, Except.bind]
    | ok value =>
      cases rest.mapM read with
      | error _ => simp [Bind.bind, Except.bind]
      | ok values => simp [Bind.bind, Except.bind, Pure.pure, Except.pure, eq_comm]

theorem mem_of_mapM {read : α → Except ε β} {entries : List α} {values : List β} {value : β}
    (readAll : entries.mapM read = .ok values) : value ∈ values ↔ ∃ entry ∈ entries, read entry = .ok value := by
  induction mapM_eq_ok_iff.mp readAll with
  | nil => simp
  | cons first others ih =>
    rw [List.mem_cons, ih (mapM_eq_ok_iff.mpr others)]
    simp [first, eq_comm]

/-- What is told of each entry by its key is told by the values in the same order. -/
theorem map_eq_of_mapM {read : α → Except ε β} {entries : List α} {values : List β} {key : α → γ} {tell : β → γ}
    (readAll : entries.mapM read = .ok values)
    (same : ∀ entry ∈ entries, ∀ value, read entry = .ok value → tell value = key entry) :
    values.map tell = entries.map key := by
  induction mapM_eq_ok_iff.mp readAll with
  | nil => rfl
  | cons first others ih =>
    obtain ⟨here, later⟩ := List.forall_mem_cons.mp same
    rw [List.map_cons, List.map_cons, here _ first, ih (mapM_eq_ok_iff.mpr others) later]

theorem exists_mapM_eq_ok {read : α → Except ε β} {entries : List α}
    (readable : ∀ entry ∈ entries, ∃ value, read entry = .ok value) : ∃ values, entries.mapM read = .ok values := by
  induction entries with
  | nil => exact ⟨[], rfl⟩
  | cons entry rest ih =>
    obtain ⟨here, later⟩ := List.forall_mem_cons.mp readable
    obtain ⟨value, first⟩ := here
    obtain ⟨values, others⟩ := ih later
    exact ⟨value :: values, by rw [List.mapM_cons, first, others]; rfl⟩

/-- The permission stands after all others of its id. -/
def LastUnderId (permissions : List Permission) (permission : Permission) : Prop :=
  ∃ earlier later, permissions = earlier ++ permission :: later ∧ ∀ other ∈ later, other.id ≠ permission.id

theorem LastUnderId.mem {permissions : List Permission} {permission : Permission}
    (last : LastUnderId permissions permission) : permission ∈ permissions := by
  obtain ⟨earlier, later, rfl, _⟩ := last
  simp

theorem lastUnderId_cons {first permission : Permission} {rest : List Permission} :
    LastUnderId (first :: rest) permission ↔
      LastUnderId rest permission ∨ permission = first ∧ ∀ other ∈ rest, other.id ≠ permission.id := by
  constructor
  · rintro ⟨earlier, later, split, apart⟩
    cases earlier with
    | nil =>
      cases split
      exact .inr ⟨rfl, apart⟩
    | cons _ earlier =>
      cases split
      exact .inl ⟨earlier, later, rfl, apart⟩
  · rintro (⟨earlier, later, rfl, apart⟩ | ⟨rfl, apart⟩)
    · exact ⟨first :: earlier, later, rfl, apart⟩
    · exact ⟨[], rest, rfl, apart⟩

theorem exists_lastUnderId {permissions : List Permission} {id : PermissionId}
    (named : ∃ permission ∈ permissions, permission.id = id) :
    ∃ last, LastUnderId permissions last ∧ last.id = id := by
  induction permissions with
  | nil => simp at named
  | cons first rest ih =>
    by_cases again : ∃ permission ∈ rest, permission.id = id
    · obtain ⟨last, isLast, same⟩ := ih again
      exact ⟨last, lastUnderId_cons.mpr (.inl isLast), same⟩
    · have isFirst : first.id = id := by simpa [again] using named
      refine ⟨first, lastUnderId_cons.mpr (.inr ⟨rfl, fun other member same => ?_⟩), isFirst⟩
      exact again ⟨other, member, same.trans isFirst⟩

/-- Writes permissions over entries, one after the other. -/
def overwriteEntries (entry : Permission → ρ) (entries : ExtTreeMap PermissionId ρ) (permissions : List Permission) :
    ExtTreeMap PermissionId ρ :=
  permissions.foldl (fun entries permission => entries.insert permission.id (entry permission)) entries

theorem getElem?_overwriteEntries {entry : Permission → ρ} {entries : ExtTreeMap PermissionId ρ}
    {permissions : List Permission} {id : PermissionId} {value : ρ} :
    (overwriteEntries entry entries permissions)[id]? = some value ↔
      (∃ permission, LastUnderId permissions permission ∧ permission.id = id ∧ entry permission = value) ∨
        (∀ permission ∈ permissions, permission.id ≠ id) ∧ entries[id]? = some value := by
  induction permissions generalizing entries with
  | nil => simp [overwriteEntries, LastUnderId]
  | cons first rest ih =>
    have continued : overwriteEntries entry entries (first :: rest) =
        overwriteEntries entry (entries.insert first.id (entry first)) rest := rfl
    rw [continued, ih, ExtTreeMap.getElem?_insert]
    simp only [lastUnderId_cons, List.forall_mem_cons]
    by_cases here : first.id = id
    · subst here
      simp [or_and_right, exists_or, and_assoc]
    · simp [or_and_right, exists_or, and_assoc, here]

theorem overwriteEntries_append (entry : Permission → ρ) (entries : ExtTreeMap PermissionId ρ)
    (first second : List Permission) :
    overwriteEntries entry entries (first ++ second) =
      overwriteEntries entry (overwriteEntries entry entries first) second :=
  List.foldl_append

/-- A store with a catalog whose entries stand for permissions. -/
class CatalogStore (σ : Type) [Store σ] where
  Entry : Type
  entries : σ → ExtTreeMap PermissionId Entry
  entry : Permission → Entry
  read : PermissionId → Entry → Except StoreError Permission
  read_entry : ∀ permission, read permission.id (entry permission) = .ok permission
  entries_empty : entries Store.empty = ∅
  entries_step : ∀ store change,
    entries (Store.step store change) = overwriteEntries entry (entries store) (Write.permissions change)
  listPermissions_eq : ∀ store,
    Store.listPermissions store = (entries store).toList.mapM fun (id, stored) => read id stored
  upsert_answers : ∀ (store : σ) permissions,
    ((Store.write (.upsertPermissions permissions)).perform store).1 = .ok (.count permissions.length)

instance : CatalogStore MemoryStore where
  Entry := Permission
  entries := MemoryStore.catalog
  entry := id
  read _ stored := .ok stored
  read_entry _ := rfl
  entries_empty := rfl
  entries_step store change := (store.step_leaves change).catalog
  listPermissions_eq store := by
    have read : (store.catalog.toList.mapM fun (_, stored) => (.ok stored : Except StoreError Permission)) =
        .ok (store.catalog.toList.map Prod.snd) := List.mapM_pure
    rw [read, ← values_eq_map_snd]
    rfl
  upsert_answers store permissions := congrArg Prod.fst (store.perform_upsertPermissions permissions)

instance : CatalogStore Database where
  Entry := CatalogRow
  entries := Database.permissions
  entry := CatalogRow.ofPermission
  read id row := row.permission id
  read_entry := CatalogRow.permission_ofPermission
  entries_empty := rfl
  entries_step tables change := (tables.step_leaves change).permissions
  listPermissions_eq _ := rfl
  upsert_answers tables permissions := congrArg Prod.fst (tables.perform_upsertPermissions permissions)

namespace Store

open CatalogStore

variable [Store σ] [CatalogStore σ] {store : σ} {changes : List Write} {list : List Permission} {permission : Permission}

/-- All that these writes put into the catalog, in the order in which they do. -/
def upserted (changes : List Write) : List Permission :=
  changes.flatMap Write.permissions

theorem entries_after (store : σ) (changes : List Write) :
    entries (after store changes) = overwriteEntries entry (entries store) (upserted changes) := by
  induction changes generalizing store with
  | nil => rfl
  | cons change rest ih =>
    have continued : after store (change :: rest) = after (step store change) rest := rfl
    have inOrder : upserted (change :: rest) = change.permissions ++ upserted rest := List.flatMap_cons
    rw [continued, ih, entries_step, inOrder, overwriteEntries_append]

theorem listPermissions_answers
    (readable : ∀ id stored, (entries store)[id]? = some stored → ∃ permission, read id stored = .ok permission) :
    ∃ list, listPermissions store = .ok list := by
  rw [listPermissions_eq]
  refine exists_mapM_eq_ok fun (id, stored) member => ?_
  exact readable id stored (ExtTreeMap.mem_toList_iff_getElem?_eq_some.mp member)

theorem mem_of_listPermissions (listed : listPermissions store = .ok list) :
    permission ∈ list ↔ ∃ id stored, (entries store)[id]? = some stored ∧ read id stored = .ok permission := by
  rw [listPermissions_eq] at listed
  simp only [mem_of_mapM listed, Prod.exists, ExtTreeMap.mem_toList_iff_getElem?_eq_some]

/-- A catalog in which every entry stands under its own id for a permission that was written so. -/
def Legible (store : σ) : Prop :=
  ∀ id stored, (entries store)[id]? = some stored →
    ∃ permission : Permission, permission.id = id ∧ stored = entry permission

theorem Legible.read_eq (legible : Legible store) {id : PermissionId} {stored : CatalogStore.Entry σ}
    (found : (entries store)[id]? = some stored) (reads : read id stored = .ok permission) :
    permission.id = id ∧ stored = entry permission := by
  obtain ⟨written, rfl, rfl⟩ := legible id stored found
  obtain rfl : written = permission := Except.ok.inj ((read_entry written).symm.trans reads)
  exact ⟨rfl, rfl⟩

theorem Legible.answers (legible : Legible store) : ∃ list, listPermissions store = .ok list := by
  refine listPermissions_answers fun id stored found => ?_
  obtain ⟨permission, rfl, rfl⟩ := legible id stored found
  exact ⟨permission, read_entry permission⟩

theorem Legible.ascending (legible : Legible store) (listed : listPermissions store = .ok list) :
    list.Pairwise fun first second => compare first.id second.id = .lt := by
  rw [listPermissions_eq] at listed
  have ids : list.map Permission.id = (entries store).toList.map Prod.fst := by
    refine map_eq_of_mapM listed fun (id, stored) member permission reads => ?_
    exact (legible.read_eq (ExtTreeMap.mem_toList_iff_getElem?_eq_some.mp member) reads).1
  have ordered : (list.map Permission.id).Pairwise fun first second => compare first second = .lt := by
    rw [ids, List.pairwise_map]
    exact ExtTreeMap.ordered_keys_toList
  exact List.pairwise_map.mp ordered

theorem Legible.mem_iff (legible : Legible store) (listed : listPermissions store = .ok list) :
    permission ∈ list ↔ (entries store)[permission.id]? = some (entry permission) := by
  rw [mem_of_listPermissions listed]
  constructor
  · rintro ⟨id, stored, found, reads⟩
    obtain ⟨rfl, rfl⟩ := legible.read_eq found reads
    exact found
  · exact fun found => ⟨permission.id, entry permission, found, read_entry permission⟩

theorem legible_overwritten {permissions : List Permission}
    (overwritten : entries store = overwriteEntries entry ∅ permissions) : Legible store := by
  intro id stored found
  rw [overwritten, getElem?_overwriteEntries] at found
  rcases found with ⟨permission, _, same, rfl⟩ | ⟨_, none⟩
  · exact ⟨permission, same, rfl⟩
  · simp at none

/-- The answer lists in the order of ids just the permissions that were written last under theirs. -/
def Lists (written : List Permission) (answer : Except StoreError (List Permission)) : Prop :=
  ∃ list, answer = .ok list ∧ (list.Pairwise fun first second => compare first.id second.id = .lt) ∧
    (∀ permission, permission ∈ list ↔ LastUnderId written permission) ∧
    ∀ id, (∃ permission ∈ list, permission.id = id) ↔ ∃ permission ∈ written, permission.id = id

theorem lists_overwritten {permissions : List Permission}
    (overwritten : entries store = overwriteEntries entry ∅ permissions) :
    Lists permissions (listPermissions store) := by
  have legible := legible_overwritten overwritten
  obtain ⟨list, listed⟩ := legible.answers
  have members : ∀ permission, permission ∈ list ↔ LastUnderId permissions permission := by
    intro permission
    rw [legible.mem_iff listed, overwritten, getElem?_overwriteEntries]
    constructor
    · rintro (⟨written, last, sameId, sameEntry⟩ | ⟨_, none⟩)
      · -- Of permissions of one id no two have the same entry, since each is read back from its own.
        have reads := read_entry (σ := σ) written
        rw [sameEntry, sameId, read_entry] at reads
        obtain rfl : permission = written := Except.ok.inj reads
        exact last
      · simp at none
    · exact fun last => .inl ⟨permission, last, rfl, rfl⟩
  refine ⟨list, listed, legible.ascending listed, members, fun id => ?_⟩
  simp only [members]
  constructor
  · rintro ⟨permission, last, same⟩
    exact ⟨permission, last.mem, same⟩
  · exact exists_lastUnderId

end Store

end AccessControl
