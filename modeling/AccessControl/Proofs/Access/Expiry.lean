import AccessControl.Proofs.Access.Growth
import AccessControl.Proofs.Access.Standing

namespace AccessControl

open Std

theorem ResourceGrant.isActive_of_le {grant : ResourceGrant} {earlier later : Timestamp} (order : earlier ≤ later)
    (active : grant.isActive later = true) : grant.isActive earlier = true := by
  rw [isActive_iff] at active ⊢
  exact fun time expires => Int64.lt_of_le_of_lt order (active time expires)

/-- What is left of grants when time has passed: some permissions may be gone, and nothing else has changed. -/
structure UserGrants.Fades (grants left : UserGrants) : Prop where
  userId : left.userId = grants.userId
  isRoot : left.isRoot = grants.isRoot
  verificationPending : left.verificationPending = grants.verificationPending
  teamIds : left.teamIds = grants.teamIds
  permissions : ∀ id ∈ left.permissions, id ∈ grants.permissions

theorem UserGrants.Fades.refl (grants : UserGrants) : grants.Fades grants :=
  ⟨rfl, rfl, rfl, rfl, fun _ member => member⟩

namespace StoreFacts

variable {facts others : StoreFacts} {registry : Registry} {enforced : Bool} {user : UserId} {principal : Principal}
  {extra fewer : Principal → Set PermissionId} {outcome : Except LoadError UserGrants} {grants : UserGrants}
  {permission : PermissionId} {resourceType resourceId : String} {earlier later : Timestamp}

theorem permissionsOn_of_le (order : earlier ≤ later) :
    facts.permissionsOn user resourceType resourceId later principal ⊆
      facts.permissionsOn user resourceType resourceId earlier principal := by
  intro id granted
  obtain ⟨grant, held, sameType, sameId, holder, active, same⟩ := granted
  exact ⟨grant, held, sameType, sameId, holder,
    fun time expires => Int64.lt_of_le_of_lt order (active time expires), same⟩

/-- Where less is granted besides the roles, loading does not fail if it did not before, as there is less to expand. -/
theorem Loads.fades (shape : facts.Loads registry enforced user extra (.ok grants))
    (shapeOfFewer : facts.Loads registry enforced user fewer outcome)
    (narrower : ∀ principal, fewer principal ⊆ extra principal) :
    ∃ left, outcome = .ok left ∧ grants.Fades left := by
  cases shape with
  | root present isRoot => exact ⟨_, shapeOfFewer.eq_root present isRoot, .refl _⟩
  | pending present notRoot pending => exact ⟨_, shapeOfFewer.eq_pending present notRoot pending, .refl _⟩
  | @granted principal permissions present notRoot verified closure registered =>
    have covered : ∀ id ∈ registry.impliedBy (principal.permissions ∪ fewer principal), id ∈ permissions := by
      intro id implied
      exact (closure id).mpr (Registry.impliedBy_mono (Set.union_subset_union_right _ (narrower principal)) implied)
    rcases shapeOfFewer.eq_granted present notRoot verified with
      ⟨left, rfl, members, _⟩ | ⟨culprit, implied, missing, _⟩
    · exact ⟨_, rfl, rfl, rfl, rfl, rfl, fun id member => covered id ((members id).mp member)⟩
    · exact absurd (registered culprit (covered culprit implied)) missing

theorem Loads.allows_of_fewer (shape : facts.Loads registry enforced user extra (.ok grants))
    (narrower : ∀ principal, fewer principal ⊆ extra principal)
    (allows : facts.Allows registry enforced user fewer permission) :
    facts.Allows registry enforced user extra permission := by
  obtain ⟨principal, present, allowed⟩ := allows
  cases isRoot : principal.isRoot with
  | true => exact ⟨principal, present, .inl isRoot⟩
  | false =>
    obtain ⟨verified, entitles⟩ := allowed.resolve_left (by simp [isRoot])
    have held : principal.permissions ∪ fewer principal ⊆ principal.permissions ∪ extra principal :=
      Set.union_subset_union_right _ (narrower principal)
    rcases shape.eq_granted present isRoot verified with ⟨_, _, _, registered⟩ | ⟨_, _, _, failed⟩
    · exact ⟨principal, present,
        .inr ⟨verified, registered, entitles.resolvable, entitles.covered.trans (Registry.impliedBy_mono held)⟩⟩
    · cases failed

/-- From this time on every read gives the same. -/
structure AgreeSince (facts others : StoreFacts) (earlier : Timestamp) : Prop where
  agreeFor : ∀ user, facts.AgreeFor others user
  resourceGrants : ∀ query, earlier ≤ query.now → facts.resourceGrants query = others.resourceGrants query

theorem AgreeSince.sameGrants (agree : facts.AgreeSince others earlier) (order : earlier ≤ later) :
    facts.SameGrants others user resourceType resourceId later :=
  fun _ _ => agree.resourceGrants _ order

end StoreFacts

def MemoryStore.compact (store : MemoryStore) (now : Timestamp) : MemoryStore :=
  { store with grants := store.grants.filter fun grant => grant.isActive now }

/-- The keys of those grants that have expired. -/
def expiredKeys (grants : List ResourceGrant) (now : Timestamp) : List GrantKey :=
  (grants.filter fun grant => !grant.isActive now).map ResourceGrant.toGrantKey

def Database.compact (tables : Database) (now : Timestamp) : Database :=
  { tables with
    resourcePermissions := tables.resourcePermissions.filter fun key expiresAt =>
      ({ key with expiresAt := expiresAt } : ResourceGrant).isActive now }

theorem GrantQuery.isActive_of_isMatch {query : GrantQuery} {grant : ResourceGrant} {earlier : Timestamp}
    (order : earlier ≤ query.now) (found : query.isMatch grant = true) : grant.isActive earlier = true :=
  ResourceGrant.isActive_of_le order (isMatch_iff.mp found).2.2.2

namespace MemoryStore

theorem mem_compact {store : MemoryStore} {now : Timestamp} {grant : ResourceGrant} :
    grant ∈ (store.compact now).grants ↔ grant ∈ store.grants ∧ grant.isActive now = true :=
  List.mem_filter

theorem compact_agreeSince (store : MemoryStore) (now : Timestamp) :
    (store.compact now).facts.AgreeSince store.facts now where
  agreeFor _ := ⟨rfl, fun _ _ => rfl, rfl⟩
  resourceGrants query order := by
    refine StoreFacts.resourceGrants_congr rfl ?_
    change (store.grants.filter _).filter _ = store.grants.filter _
    rw [List.filter_filter]
    refine List.filter_congr fun grant _ => ?_
    cases found : query.isMatch grant with
    | false => rfl
    | true => exact GrantQuery.isActive_of_isMatch order found

theorem placeGrant_of_unused {grants : List ResourceGrant} {grant : ResourceGrant}
    (unused : grant.toGrantKey ∉ keys grants) : placeGrant grant grants = grants ++ [grant] := by
  induction grants with
  | nil => rfl
  | cons first rest ih =>
    have apart : first.toGrantKey ≠ grant.toGrantKey := (List.ne_of_not_mem_cons unused).symm
    rw [placeGrant, if_neg apart, ih (List.not_mem_of_not_mem_cons unused), List.cons_append]

/-- A grant that has expired when it is placed is not kept, unless it takes the place of another. -/
theorem compact_step_grant {store : MemoryStore} {now : Timestamp} {grant : ResourceGrant}
    (expired : grant.isActive now = false) (unused : grant.toGrantKey ∉ keys store.grants) :
    (Store.step store (.grant grant)).compact now = store.compact now := by
  change { store with grants := (placeGrant grant store.grants).filter _ } = store.compact now
  rw [placeGrant_of_unused unused, List.filter_append, List.filter_singleton, expired]
  simp [compact]

theorem after_revoke (store : MemoryStore) (withdrawn : List GrantKey) :
    Store.after store (withdrawn.map .revoke) =
      { store with grants := store.grants.filter fun grant => grant.toGrantKey ∉ withdrawn } := by
  induction withdrawn generalizing store with
  | nil => simp [Store.after]
  | cons first rest ih =>
    refine (ih (Store.step store (.revoke first))).trans ?_
    change { store with
      grants := (store.grants.filter fun grant : ResourceGrant => grant.toGrantKey ≠ first).filter _ } = _
    simp [List.filter_filter, Bool.and_comm]

/-- No other grant goes with one that has expired, where no two have one key. -/
theorem compact_eq_after (store : MemoryStore) (now : Timestamp) (distinct : (keys store.grants).Nodup) :
    Store.after store ((expiredKeys store.grants now).map .revoke) = store.compact now := by
  rw [after_revoke, compact]
  congr 1
  refine List.filter_congr fun grant held => ?_
  have expired : grant.toGrantKey ∈ expiredKeys store.grants now ↔ grant.isActive now = false := by
    simp only [expiredKeys, List.mem_map, List.mem_filter]
    constructor
    · intro listed
      obtain ⟨other, ⟨otherHeld, otherExpired⟩, same⟩ := listed
      obtain rfl : other = grant := List.inj_on_of_nodup_map distinct otherHeld held same
      simpa using otherExpired
    · exact fun gone => ⟨grant, ⟨held, by simp [gone]⟩, rfl⟩
  simp [expired]

end MemoryStore

namespace Database

theorem mem_compact {tables : Database} {now : Timestamp} {grant : ResourceGrant} :
    grant ∈ (tables.compact now).grants ↔ grant ∈ tables.grants ∧ grant.isActive now = true := by
  rw [mem_grants, mem_grants, compact, ExtTreeMap.getElem?_filter', Option.filter_eq_some_iff]

theorem compact_agreeSince (tables : Database) (now : Timestamp) :
    (tables.compact now).facts.AgreeSince tables.facts now where
  agreeFor _ := ⟨rfl, fun _ _ => rfl, rfl⟩
  resourceGrants query order := by
    refine StoreFacts.resourceGrants_congr rfl (grantsFor_congr fun key expiresAt chosen => ?_)
    rw [compact, ExtTreeMap.getElem?_filter', Option.filter_eq_some_iff]
    refine and_iff_left_of_imp fun _ => ?_
    rw [selects_eq_isMatch] at chosen
    exact GrantQuery.isActive_of_isMatch order chosen

theorem compact_step_grant {tables : Database} {now : Timestamp} {grant : ResourceGrant}
    (expired : grant.isActive now = false) (unused : grant.toGrantKey ∉ tables.resourcePermissions) :
    (Store.step tables (.grant grant)).compact now = tables.compact now := by
  change { tables with
    resourcePermissions := (tables.resourcePermissions.insert grant.toGrantKey grant.expiresAt).filter _ } =
      tables.compact now
  rw [compact]
  congr 1
  refine ExtTreeMap.ext_getElem? fun key => ?_
  rw [ExtTreeMap.getElem?_filter', ExtTreeMap.getElem?_filter', ExtTreeMap.getElem?_insert]
  by_cases same : grant.toGrantKey = key
  · subst same
    simp [ExtTreeMap.getElem?_eq_none unused, Option.filter_some, expired]
  · rw [if_neg (by simpa using same)]

theorem after_revoke (tables : Database) (withdrawn : List GrantKey) :
    Store.after tables (withdrawn.map .revoke) =
      { tables with resourcePermissions := withdrawn.foldl ExtTreeMap.erase tables.resourcePermissions } := by
  induction withdrawn generalizing tables with
  | nil => rfl
  | cons first rest ih => exact ih (Store.step tables (.revoke first))

theorem getElem?_foldl_erase {rows : ExtTreeMap GrantKey (Option Timestamp)} {withdrawn : List GrantKey}
    {key : GrantKey} :
    (withdrawn.foldl ExtTreeMap.erase rows)[key]? = if key ∈ withdrawn then none else rows[key]? := by
  induction withdrawn generalizing rows with
  | nil => simp
  | cons first rest ih =>
    rw [List.foldl_cons, ih, ExtTreeMap.getElem?_erase]
    by_cases later : key ∈ rest
    · simp [later]
    · by_cases same : first = key
      · simp [same]
      · rw [if_neg later, if_neg (by simpa using same), if_neg (by simp [later, Ne.symm same])]

/-- Each of the expired grants is in a row of its own, so nothing else is gone when its key has been withdrawn. -/
theorem compact_eq_after (tables : Database) (now : Timestamp) :
    Store.after tables ((expiredKeys tables.grants now).map .revoke) = tables.compact now := by
  rw [after_revoke, compact]
  congr 1
  refine ExtTreeMap.ext_getElem? fun key => ?_
  rw [getElem?_foldl_erase, ExtTreeMap.getElem?_filter']
  cases row : tables.resourcePermissions[key]? with
  | none => simp
  | some expiresAt =>
    have expired : key ∈ expiredKeys tables.grants now ↔
        ({ key with expiresAt := expiresAt } : ResourceGrant).isActive now = false := by
      simp only [expiredKeys, List.mem_map, List.mem_filter, mem_grants, Bool.not_eq_true']
      constructor
      · intro listed
        obtain ⟨grant, ⟨held, gone⟩, rfl⟩ := listed
        obtain rfl : grant.expiresAt = expiresAt := Option.some.inj (held.symm.trans row)
        exact gone
      · exact fun gone => ⟨{ key with expiresAt := expiresAt }, ⟨row, gone⟩, rfl⟩
    cases active : ({ key with expiresAt := expiresAt } : ResourceGrant).isActive now with
    | true => simp [expired, active, Option.filter_some]
    | false => simp [expired, active, Option.filter_some]

end Database

namespace Store

open Checker (Given resourceArguments)

variable [Store σ] {store left right third : σ} {facts others : StoreFacts} {registry : Registry}
  {config : CheckerConfig} {user : UserId} {resourceType resourceId : String} {permission : PermissionId}
  {earlier later : Timestamp} {grants : UserGrants}

/-- Whoever can be loaded for a resource at this time can be at every later time, and has nothing then that was not had
before; so what is allowed later was allowed. -/
structure OnlyFades (registry : Registry) (config : CheckerConfig) (store : σ) (earlier : Timestamp) : Prop where
  fades : ∀ user resourceType resourceId later grants, earlier ≤ later →
    ((Checker.on registry config store).loader.loadForResource user resourceType resourceId earlier).result =
      .ok grants →
    ∃ left, ((Checker.on registry config store).loader.loadForResource user resourceType resourceId later).result =
      .ok left ∧ grants.Fades left
  allowed : ∀ user resourceType resourceId later grants permission decision, earlier ≤ later →
    ((Checker.on registry config store).loader.loadForResource user resourceType resourceId earlier).result =
      .ok grants →
    (Checker.on registry config store).explainResource user resourceType resourceId permission later = .ok decision →
    decision.allowed = true → ∃ before,
      (Checker.on registry config store).explainResource user resourceType resourceId permission earlier = .ok before ∧
        before.allowed = true

/-- From this time on nothing that is loaded, listed or decided tells the stores apart, failures included. -/
structure AlikeSince (registry : Registry) (config : CheckerConfig) (left right : σ) (earlier : Timestamp) : Prop where
  load : ∀ user,
    (Checker.on registry config left).loader.load user = (Checker.on registry config right).loader.load user
  loadForResource : ∀ user resourceType resourceId later, earlier ≤ later →
    (Checker.on registry config left).loader.loadForResource user resourceType resourceId later =
      (Checker.on registry config right).loader.loadForResource user resourceType resourceId later
  expandGrants : ∀ grants resourceType resourceId later, earlier ≤ later →
    (Checker.on registry config left).loader.resourcePermissions grants resourceType resourceId later =
      (Checker.on registry config right).loader.resourcePermissions grants resourceType resourceId later
  resourcePermissions : ∀ user resourceType resourceId later, earlier ≤ later →
    (Checker.on registry config left).resourcePermissions user resourceType resourceId later =
      (Checker.on registry config right).resourcePermissions user resourceType resourceId later
  explainResource : ∀ user resourceType resourceId permission later, earlier ≤ later →
    (Checker.on registry config left).explainResource user resourceType resourceId permission later =
      (Checker.on registry config right).explainResource user resourceType resourceId permission later

/-- Stores of which a third is an image, such as what is left of both of them, are alike. -/
theorem AlikeSince.of_common (first : AlikeSince registry config third left earlier)
    (second : AlikeSince registry config third right earlier) : AlikeSince registry config left right earlier where
  load user := (first.load user).symm.trans (second.load user)
  loadForResource user resourceType resourceId later order :=
    (first.loadForResource user resourceType resourceId later order).symm.trans
      (second.loadForResource user resourceType resourceId later order)
  expandGrants grants resourceType resourceId later order :=
    (first.expandGrants grants resourceType resourceId later order).symm.trans
      (second.expandGrants grants resourceType resourceId later order)
  resourcePermissions user resourceType resourceId later order :=
    (first.resourcePermissions user resourceType resourceId later order).symm.trans
      (second.resourcePermissions user resourceType resourceId later order)
  explainResource user resourceType resourceId permission later order :=
    (first.explainResource user resourceType resourceId permission later order).symm.trans
      (second.explainResource user resourceType resourceId permission later order)

theorem Gives.result_outcome (gives : Gives store facts) (registry : Registry) (config : CheckerConfig) (user : UserId)
    (resourceType resourceId : String) (now : Timestamp) :
    facts.Answers config.enforceVerification user ∧
        facts.Loads registry config.enforceVerification user (facts.permissionsOn user resourceType resourceId now)
          ((Checker.on registry config store).loader.loadForResource user resourceType resourceId now).result ∨
      ¬ facts.Answers config.enforceVerification user ∧
        ∃ error, ((Checker.on registry config store).loader.loadForResource user resourceType resourceId now).result =
          .error error := by
  obtain ⟨outcome, settles, shape⟩ :=
    (Checker.on registry config store).loader.loadForResource_outcome gives.tells user resourceType resourceId now
  rw [settles.result_eq]
  exact shape

theorem Gives.result_loads (gives : Gives store facts) (answers : facts.Answers config.enforceVerification user) :
    facts.Loads registry config.enforceVerification user (facts.permissionsOn user resourceType resourceId later)
      ((Checker.on registry config store).loader.loadForResource user resourceType resourceId later).result :=
  ((gives.result_outcome registry config user resourceType resourceId later).resolve_right
    fun refused => refused.1 answers).2

/-- Grants that have been loaded for a resource have been asked for, as far as they count. -/
theorem Gives.loads_of_result (gives : Gives store facts)
    (loaded : ((Checker.on registry config store).loader.loadForResource user resourceType resourceId now).result =
      .ok grants) :
    facts.Answers config.enforceVerification user ∧
      facts.Loads registry config.enforceVerification user (facts.permissionsOn user resourceType resourceId now)
        (.ok grants) := by
  rcases gives.result_outcome registry config user resourceType resourceId now with shape | ⟨_, error, failed⟩
  · exact loaded ▸ shape
  · cases loaded.symm.trans failed

theorem allows_iff (registry : Registry) (config : CheckerConfig) (gives : Gives store facts)
    (given : Given (resourceArguments user resourceType resourceId permission)) (now : Timestamp) :
    (∃ decision, (Checker.on registry config store).explainResource user resourceType resourceId permission now =
      .ok decision ∧ decision.allowed = true) ↔
    facts.Answers config.enforceVerification user ∧
      facts.Allows registry config.enforceVerification user (facts.permissionsOn user resourceType resourceId now)
        permission :=
  Checker.explainResource_allows_iff gives.tells (Checker.inTime_on registry config store) given

theorem Gives.onlyFades (gives : Gives store facts) (registry : Registry) (config : CheckerConfig)
    (earlier : Timestamp) : OnlyFades registry config store earlier where
  fades user resourceType resourceId later grants order loaded := by
    obtain ⟨answers, shape⟩ := gives.loads_of_result loaded
    exact shape.fades (gives.result_loads answers) fun _ => StoreFacts.permissionsOn_of_le order
  allowed user resourceType resourceId later grants permission decision order loaded explained allowed := by
    obtain ⟨answers, shape⟩ := gives.loads_of_result loaded
    by_cases given : Given (resourceArguments user resourceType resourceId permission)
    · have allows := (allows_iff registry config gives given later).mp ⟨decision, explained, allowed⟩
      exact (allows_iff registry config gives given earlier).mpr
        ⟨answers, shape.allows_of_fewer (fun _ => StoreFacts.permissionsOn_of_le order) allows.2⟩
    · obtain ⟨field, refused⟩ := Checker.explainResource_of_blank _ given
      cases refused.symm.trans explained

theorem alikeSince_of_agreeSince (leftGives : Gives left facts) (rightGives : Gives right others)
    (agree : facts.AgreeSince others earlier) (registry : Registry) (config : CheckerConfig) :
    AlikeSince registry config left right earlier where
  load user := load_congr leftGives rightGives (agree.agreeFor user)
  loadForResource user _ _ _ order :=
    loadForResource_congr leftGives rightGives (agree.agreeFor user) (agree.sameGrants order)
  expandGrants grants resourceType resourceId later order := by
    have same := agree.resourceGrants
      { resourceType, resourceId, userId := grants.userId, teamIds := grants.teamIds, now := later } order
    unfold Loader.resourcePermissions
    simp only [Checker.loader, Checker.on, source, leftGives.resourceGrants, rightGives.resourceGrants, same]
    rfl
  resourcePermissions user resourceType resourceId later order := by
    unfold Checker.resourcePermissions
    rw [loadForResource_congr leftGives rightGives (agree.agreeFor user) (agree.sameGrants order)]
    rfl
  explainResource user _ _ _ _ order :=
    explainResource_congr leftGives rightGives (agree.agreeFor user) (agree.sameGrants order)

theorem memory_compact_alike (registry : Registry) (config : CheckerConfig) (store : MemoryStore) (now : Timestamp) :
    AlikeSince registry config (store.compact now) store now :=
  alikeSince_of_agreeSince (store.compact now).gives store.gives (store.compact_agreeSince now) registry config

theorem tables_compact_alike (registry : Registry) (config : CheckerConfig) (tables : Database) (now : Timestamp) :
    AlikeSince registry config (tables.compact now) tables now :=
  alikeSince_of_agreeSince (tables.compact now).gives tables.gives (tables.compact_agreeSince now) registry config

/-- Time only takes, and what it has taken may be removed. Nor is a grant noticed that is placed when it has expired,
whatever permission it names. -/
theorem expiry_only_takes (registry : Registry) (config : CheckerConfig) (now : Timestamp) :
    (∀ store : MemoryStore,
      OnlyFades registry config store now ∧
      AlikeSince registry config (store.compact now) store now ∧
      (∀ grant, grant ∈ (store.compact now).grants ↔ grant ∈ store.grants ∧ grant.isActive now = true) ∧
      ∀ grant, grant.isActive now = false → grant.toGrantKey ∉ store.grants.map ResourceGrant.toGrantKey →
        AlikeSince registry config (step store (.grant grant)) store now) ∧
    ∀ tables : Database,
      OnlyFades registry config tables now ∧
      AlikeSince registry config (tables.compact now) tables now ∧
      (∀ grant, grant ∈ (tables.compact now).grants ↔ grant ∈ tables.grants ∧ grant.isActive now = true) ∧
      ∀ grant, grant.isActive now = false → grant.toGrantKey ∉ tables.resourcePermissions →
        AlikeSince registry config (step tables (.grant grant)) tables now := by
  constructor
  · intro store
    have compacted := memory_compact_alike registry config store now
    refine ⟨store.gives.onlyFades registry config now, compacted, fun _ => MemoryStore.mem_compact, ?_⟩
    intro grant expired unused
    have placed := memory_compact_alike registry config (step store (.grant grant)) now
    rw [MemoryStore.compact_step_grant expired unused] at placed
    exact placed.of_common compacted
  · intro tables
    have compacted := tables_compact_alike registry config tables now
    refine ⟨tables.gives.onlyFades registry config now, compacted, fun _ => Database.mem_compact, ?_⟩
    intro grant expired unused
    have placed := tables_compact_alike registry config (step tables (.grant grant)) now
    rw [Database.compact_step_grant expired unused] at placed
    exact placed.of_common compacted

/-- One who may edit a document, and until some time was granted there what is not registered. -/
def lent : MemoryStore :=
  { MemoryStore.empty with
    users := (∅ : Std.ExtTreeMap UserId StoredUser).insert "ann" ⟨false, .oidc, ∅⟩
    grants := [⟨⟨"doc", "7", ⟨.user, "ann"⟩, "ghost"⟩, some 9⟩, ⟨⟨"doc", "7", ⟨.user, "ann"⟩, "edit"⟩, none⟩] }

def lender : Principal := ⟨"ann", false, .oidc, [], []⟩

/-- In the moment at which the grant expires the check no longer fails, and the grant may go. -/
theorem ghost_forgotten :
    (Checker.on .editing {} lent).explainResource "ann" "doc" "7" "edit" 8 = .error (.unknownPermission "ghost") ∧
      ∃ decision, (Checker.on .editing {} lent).explainResource "ann" "doc" "7" "edit" 9 = .ok decision ∧
        decision.allowed = true ∧
        (Checker.on .editing {} (lent.compact 9)).explainResource "ann" "doc" "7" "edit" 9 = .ok decision := by
  have held : ∀ id, id ∈ lender.permissions ∪ lent.facts.permissionsOn "ann" "doc" "7" 9 lender ↔ id = "edit" := by
    simp [Principal.permissions, StoreFacts.permissionsOn, MemoryStore.facts, lent, lender, eq_comm]
  have present : lent.facts.principal "ann" = some lender := by decide
  have verified : ¬ lent.facts.Pending true lender := fun pending => absurd pending.2.1 (by decide)
  have given : Given (resourceArguments "ann" "doc" "7" "edit") := by unfold Given; decide
  have allows : lent.facts.Allows .editing true "ann" (lent.facts.permissionsOn "ann" "doc" "7" 9) "edit" :=
    ⟨lender, present, .inr ⟨verified, Registry.editing_entitles held⟩⟩
  have removed := ((expiry_only_takes .editing {} 9).1 lent).2.1.explainResource "ann" "doc" "7" "edit" 9 (by decide)
  rw [removed]
  obtain ⟨decision, explained, allowed⟩ := (allows_iff .editing {} lent.gives given 9).mpr
    ⟨lent.answers _ _, allows⟩
  exact ⟨by decide +kernel, decision, explained, allowed, explained⟩

end Store

end AccessControl
