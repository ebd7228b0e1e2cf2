import AccessControl.Access.Checker
import AccessControl.Proofs.Registry.Registering
import AccessControl.Proofs.Store.Catalog

namespace AccessControl

open Std

theorem lastUnderId_iff_mem {permissions : List Permission} {permission : Permission}
    (distinct : (permissions.map Permission.id).Nodup) : LastUnderId permissions permission ↔ permission ∈ permissions := by
  refine ⟨LastUnderId.mem, fun member => ?_⟩
  obtain ⟨earlier, later, rfl⟩ := List.append_of_mem member
  refine ⟨earlier, later, rfl, fun other listed same => ?_⟩
  rw [List.map_append, List.map_cons] at distinct
  have apart := (List.nodup_cons.mp (List.nodup_append.mp distinct).2.1).1
  exact apart (same ▸ List.mem_map_of_mem listed)

namespace Registry

variable {registry : Registry} {permission : Permission} {id : PermissionId}

theorem length_permissions (registry : Registry) : registry.permissions.length = registry.size := by
  rw [permissions, values_eq_map_snd, List.length_map, ExtTreeMap.length_toList, size]

theorem mem_permissions : permission ∈ registry.permissions ↔ ∃ id, registry.find? id = some permission := by
  simp only [permissions, values_eq_map_snd, List.mem_map, Prod.exists, ExtTreeMap.mem_toList_iff_getElem?_eq_some,
    exists_eq_right, find?]

namespace WellFormed

theorem mem_permissions_iff (wellFormed : registry.WellFormed) :
    permission ∈ registry.permissions ↔ registry.find? permission.id = some permission := by
  rw [mem_permissions]
  constructor
  · rintro ⟨id, found⟩
    rwa [wellFormed.ownId id permission found]
  · exact fun found => ⟨permission.id, found⟩

theorem map_id_permissions (wellFormed : registry.WellFormed) : registry.permissions.map Permission.id = registry.ids := by
  have keys : registry.ids = registry.entries.toList.map Prod.fst := ExtTreeMap.map_fst_toList_eq_keys.symm
  rw [Registry.permissions, values_eq_map_snd, List.map_map, keys]
  refine List.map_congr_left fun entry listed => ?_
  exact wellFormed.ownId entry.1 entry.2 (ExtTreeMap.mem_toList_iff_getElem?_eq_some.mp listed)

theorem distinct (wellFormed : registry.WellFormed) : (registry.permissions.map Permission.id).Nodup := by
  rw [wellFormed.map_id_permissions]
  exact registry.nodup_ids

theorem exists_id_iff (wellFormed : registry.WellFormed) :
    (∃ permission ∈ registry.permissions, permission.id = id) ↔ id ∈ registry := by
  rw [← List.mem_map, wellFormed.map_id_permissions, mem_ids]

/-- Registered permissions are in normal form, so nothing happens to them when they are registered again. -/
theorem rebuild (wellFormed : registry.WellFormed) :
    (Registration.registerAll registry.permissions).perform empty = (.ok (), registry) := by
  have normal : ∀ permission ∈ registry.permissions, permission.normalize = permission := by
    intro permission member
    obtain ⟨id, found⟩ := mem_permissions.mp member
    exact (wellFormed.permissions id permission found).normalize_eq
  have batch := empty.registerAll_outcome registry.permissions
  generalize (Registration.registerAll registry.permissions).perform empty = result at batch
  cases batch with
  | @all after adds =>
    have same : after = registry := by
      refine ext_find? fun id => Option.ext fun permission => ?_
      rw [adds.found]
      constructor
      · rintro (none | ⟨given, member, rfl, rfl⟩)
        · simp [find?, empty] at none
        · rw [normal given member]
          exact wellFormed.mem_permissions_iff.mp member
      · intro found
        have member := mem_permissions.mpr ⟨id, found⟩
        exact .inr ⟨permission, member, normal permission member, wellFormed.ownId id permission found⟩
    rw [same]
  | @stopped added later failing error after split adds refuses =>
    have member : failing ∈ registry.permissions := split ▸ List.mem_append_right _ List.mem_cons_self
    obtain ⟨id, found⟩ := mem_permissions.mp member
    have formed := wellFormed.permissions id failing found
    rw [formed.normalize_eq] at refuses
    cases refuses with
    | unnamed empty => exact absurd empty formed.named
    | dependsOnItself _ itself => exact absurd itself formed.dependsOn.others
    | impliesItself _ _ itself => exact absurd itself formed.implies.others
    | known _ _ _ present =>
      obtain ⟨twin, foundTwin⟩ := Option.isSome_iff_exists.mp (find?_isSome.mpr present)
      rcases (adds.found _ _).mp foundTwin with none | ⟨given, earlier, sameGiven, sameId⟩
      · simp [find?, empty] at none
      · rw [normal given (split ▸ List.mem_append_left _ earlier)] at sameGiven
        have distinct := wellFormed.distinct
        rw [split, List.map_append, List.map_cons] at distinct
        have apart := (List.nodup_append.mp distinct).2.2 twin.id (sameGiven ▸ List.mem_map_of_mem earlier) failing.id
          List.mem_cons_self
        exact absurd sameId apart

end WellFormed

end Registry

namespace Store

open CatalogStore

variable [Store σ] [CatalogStore σ] {registry : Registry} {id : PermissionId} {permission : Permission}
  {store other : σ}

/-- The store after the registry has been written into its catalog. -/
def synced (registry : Registry) (store : σ) : σ :=
  step store (.upsertPermissions registry.permissions)

theorem perform_syncCatalog (registry : Registry) (store : σ) :
    registry.syncCatalog.perform store = (.ok registry.size, synced registry store) := by
  have answered := upsert_answers store registry.permissions
  unfold Registry.syncCatalog synced step
  rw [write_upsertPermissions, Transition.perform_bind] at answered ⊢
  rw [← registry.length_permissions]
  generalize Transition.perform (upsertPermissions registry.permissions) store = performed at answered ⊢
  obtain ⟨outcome, _⟩ := performed
  cases outcome with
  | error _ => cases answered
  | ok count =>
    cases answered
    rfl

theorem entries_synced (registry : Registry) (store : σ) :
    entries (synced registry store) = overwriteEntries entry (entries store) registry.permissions :=
  entries_step store _

theorem getElem?_synced (wellFormed : registry.WellFormed) (store : σ) {stored : Entry σ} :
    (entries (synced registry store))[id]? = some stored ↔
      (∃ permission, registry.find? id = some permission ∧ entry permission = stored) ∨
        id ∉ registry ∧ (entries store)[id]? = some stored := by
  have written : ∀ permission, LastUnderId registry.permissions permission ∧ permission.id = id ↔
      registry.find? id = some permission := by
    intro permission
    rw [lastUnderId_iff_mem wellFormed.distinct, wellFormed.mem_permissions_iff]
    constructor
    · rintro ⟨found, rfl⟩
      exact found
    · intro found
      obtain rfl := wellFormed.ownId id permission found
      exact ⟨found, rfl⟩
  have absent : (∀ permission ∈ registry.permissions, permission.id ≠ id) ↔ id ∉ registry := by
    rw [← wellFormed.exists_id_iff]
    simp
  rw [entries_synced, getElem?_overwriteEntries, absent]
  simp only [← and_assoc, written]

theorem synced_others (wellFormed : registry.WellFormed) (store : σ) (unregistered : id ∉ registry) :
    (entries (synced registry store))[id]? = (entries store)[id]? := by
  have absent : ∀ permission, registry.find? id ≠ some permission :=
    fun permission found => unregistered (Registry.find?_isSome.mp (by rw [found]; rfl))
  refine Option.ext fun stored => ?_
  rw [getElem?_synced wellFormed]
  simp [absent, unregistered]

theorem synced_registered (wellFormed : registry.WellFormed) (store : σ) (found : registry.find? id = some permission) :
    (entries (synced registry store))[id]? = some (entry permission) :=
  (getElem?_synced wellFormed store).mpr (.inl ⟨permission, found, rfl⟩)

theorem synced_twice (wellFormed : registry.WellFormed) (store : σ) :
    entries (synced registry (synced registry store)) = entries (synced registry store) := by
  refine ExtTreeMap.ext_getElem? fun id => ?_
  by_cases registered : id ∈ registry
  · obtain ⟨permission, found⟩ := Option.isSome_iff_exists.mp (Registry.find?_isSome.mpr registered)
    rw [synced_registered wellFormed _ found, synced_registered wellFormed _ found]
  · exact synced_others wellFormed _ registered

theorem listPermissions_congr (same : entries store = entries other) :
    listPermissions store = listPermissions other := by
  rw [listPermissions_eq, listPermissions_eq, same]

theorem synced_fresh (wellFormed : registry.WellFormed) (fresh : entries store = ∅) :
    listPermissions (synced registry store) = .ok registry.permissions := by
  have overwritten : entries (synced registry store) = overwriteEntries entry ∅ registry.permissions := by
    rw [entries_synced, fresh]
  obtain ⟨list, listed, ordered, members, _⟩ := lists_overwritten overwritten
  have sorted : registry.permissions.Pairwise fun first second => compare first.id second.id = .lt := by
    have ids := registry.ids_pairwise_lt
    rw [← wellFormed.map_id_permissions] at ids
    exact List.pairwise_map.mp ids
  have same : list = registry.permissions := eq_of_ascending_by Permission.id ordered sorted fun permission =>
    (members permission).trans (lastUnderId_iff_mem wellFormed.distinct)
  rw [listed, same]

/-- What has come of a catalog into which the registry was written. -/
structure Synced (registry : Registry) (before after : σ) : Prop where
  others : ∀ id, id ∉ registry → (entries after)[id]? = (entries before)[id]?
  /-- Every registered permission is read back, whatever could or could not be read before. -/
  registered : ∀ id permission, registry.find? id = some permission →
    ∃ stored, (entries after)[id]? = some stored ∧ read id stored = .ok permission
  listed : ∀ list, listPermissions after = .ok list → registry.permissions ⊆ list
  answers :
    (∀ id, id ∉ registry → ∀ stored, (entries before)[id]? = some stored →
      ∃ permission, read id stored = .ok permission) →
    ∃ list, listPermissions after = .ok list
  again : ∃ twice, registry.syncCatalog.perform after = (.ok registry.size, twice) ∧
    listPermissions twice = listPermissions after
  fresh : entries before = ∅ → listPermissions after = .ok registry.permissions

theorem synced_synced (wellFormed : registry.WellFormed) (store : σ) :
    Synced registry store (synced registry store) where
  others id := synced_others wellFormed store
  registered id permission found := by
    obtain rfl := wellFormed.ownId id permission found
    exact ⟨_, synced_registered wellFormed store found, read_entry permission⟩
  listed list listed permission member := by
    have found := wellFormed.mem_permissions_iff.mp member
    exact (mem_of_listPermissions listed).mpr ⟨_, _, synced_registered wellFormed store found, read_entry permission⟩
  answers readable := by
    refine listPermissions_answers fun id stored found => ?_
    rcases (getElem?_synced wellFormed store).mp found with ⟨permission, registered, rfl⟩ | ⟨unregistered, kept⟩
    · obtain rfl := wellFormed.ownId id permission registered
      exact ⟨permission, read_entry permission⟩
    · exact readable id unregistered stored kept
  again := ⟨_, perform_syncCatalog registry _, listPermissions_congr (synced_twice wellFormed store)⟩
  fresh := synced_fresh wellFormed

/-- Both stores list of all permissions ever written the last of each id. A registry that any calls have made can be
written into the catalog of either store in any state, which overrides what stood under its ids and leaves the rest, and
its permissions, listed again, make the same registry. -/
theorem catalog_roundTrip :
    (∀ changes, Lists (upserted changes) (listPermissions (after (empty : MemoryStore) changes))) ∧
    (∀ changes, Lists (upserted changes) (listPermissions (after (empty : Database) changes))) ∧
    ∀ calls, let registry := Registry.empty.afterCalls calls
      (∀ store : MemoryStore, ∃ later, registry.syncCatalog.perform store = (.ok registry.size, later) ∧
        Synced registry store later) ∧
      (∀ tables : Database, ∃ later, registry.syncCatalog.perform tables = (.ok registry.size, later) ∧
        Synced registry tables later) ∧
      (Registration.registerAll registry.permissions).perform .empty = (.ok (), registry) := by
  refine ⟨fun changes => ?_, fun changes => ?_, fun calls => ?_⟩
  · exact lists_overwritten (entries_after _ _)
  · exact lists_overwritten (entries_after _ _)
  · have wellFormed := Registry.afterCalls_wellFormed Registry.wellFormed_empty calls
    exact ⟨fun store => ⟨_, perform_syncCatalog _ store, synced_synced wellFormed store⟩,
      fun tables => ⟨_, perform_syncCatalog _ tables, synced_synced wellFormed tables⟩, wellFormed.rebuild⟩

end Store

end AccessControl
