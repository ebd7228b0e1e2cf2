import AccessControl.Proofs.Access.Interchange
import AccessControl.Proofs.Access.Checking
import AccessControl.Proofs.Directory.Memory
import AccessControl.Proofs.Directory.Tables
import AccessControl.Proofs.Store.GrantWrites

namespace AccessControl

/-- What comes after a change need agree only on what the change can give. -/
theorem Transition.bind_congr {change : Transition ε σ α} {next more : α → Transition ε σ β}
    (same : ∀ state value, (change.perform state).1 = .ok value → next value = more value) :
    change >>= next = change >>= more := by
  have performed : ∀ state, (change >>= next).perform state = (change >>= more).perform state := by
    intro state
    have agree := same state
    rw [perform_bind, perform_bind]
    generalize change.perform state = first at agree ⊢
    obtain ⟨outcome, after⟩ := first
    cases outcome with
    | error _ => rfl
    | ok value => exact congrFun (congrArg perform (agree value rfl)) after
  exact funext performed

/-- No read of a store takes time. -/
theorem Checker.inTime_on [Store σ] (registry : Registry) (config : CheckerConfig) (store : σ) :
    (on registry config store).InTime .none :=
  fun _ _ => Nat.zero_le _

/-- But for the names and the grants, the facts are those that the directory gives. -/
structure StoreFacts.Follows (facts : StoreFacts) (directory : Directory) : Prop where
  standing : ∀ user, (facts.principal user).map Principal.standing = directory.standing user
  verification : ∀ user, facts.verification user = directory.verification user
  verificationRequired : facts.verificationRequired = directory.verificationRequired

theorem MemoryStore.follows (store : MemoryStore) : store.facts.Follows store.directory where
  standing := store.standing_loadPrincipal
  verification _ := rfl
  verificationRequired := rfl

theorem Database.Referential.follows {tables : Database} (referential : tables.Referential) :
    tables.facts.Follows tables.directory where
  standing := standing_loadPrincipal referential
  verification _ := rfl
  verificationRequired := rfl

namespace StoreFacts

variable {facts others : StoreFacts} {directory : Directory} {user : UserId} {principal : Principal}

theorem Follows.standing_eq (follows : facts.Follows directory) (present : facts.principal user = some principal) :
    directory.standing user = some principal.standing := by
  rw [← follows.standing, present, Option.map_some]

theorem Follows.account (follows : facts.Follows directory) (present : facts.principal user = some principal) :
    directory.account user = some ⟨principal.isRoot, principal.provider⟩ := by
  obtain ⟨account, found, same⟩ := Option.map_eq_some_iff.mp (follows.standing_eq present)
  have sameRoot : account.isRoot = principal.isRoot := congrArg Standing.isRoot same
  have sameProvider : account.provider = principal.provider := congrArg Standing.provider same
  rw [found, ← sameRoot, ← sameProvider]

theorem Follows.userId (follows : facts.Follows directory) (present : facts.principal user = some principal) :
    principal.userId = user := by
  obtain ⟨_, _, same⟩ := Option.map_eq_some_iff.mp (follows.standing_eq present)
  exact (congrArg Standing.userId same).symm

theorem Follows.teamIds (follows : facts.Follows directory) (present : facts.principal user = some principal) :
    principal.teamIds = (directory.teams user).toList := by
  obtain ⟨_, _, same⟩ := Option.map_eq_some_iff.mp (follows.standing_eq present)
  exact (congrArg Standing.teamIds same).symm

theorem Follows.present {account : Account} (follows : facts.Follows directory)
    (found : directory.account user = some account) : ∃ principal, facts.principal user = some principal := by
  have standing := follows.standing user
  rw [Directory.standing, found, Option.map_some] at standing
  obtain ⟨principal, present, _⟩ := Option.map_eq_some_iff.mp standing
  exact ⟨principal, present⟩

theorem Follows.mem_permissions (follows : facts.Follows directory) (present : facts.principal user = some principal)
    {id : PermissionId} :
    id ∈ principal.permissions ↔ ∃ role, directory.Carries user role ∧ id ∈ directory.permissions role := by
  rw [← Principal.mem_rolePermissions]
  exact Directory.mem_rolePermissions (follows.standing_eq present)

/-- All that loading a user's grants asks for, everywhere and without regard to resources, is the same. -/
structure AgreeFor (facts others : StoreFacts) (user : UserId) : Prop where
  standing : (facts.principal user).map Principal.standing = (others.principal user).map Principal.standing
  verification : ∀ principal, facts.principal user = some principal →
    facts.verification principal.userId = others.verification principal.userId
  verificationRequired : facts.verificationRequired = others.verificationRequired

/-- The user's grants on a resource are the same, in the same order. -/
def SameGrants (facts others : StoreFacts) (user : UserId) (resourceType resourceId : String) (now : Timestamp) : Prop :=
  ∀ principal, facts.principal user = some principal →
    facts.resourceGrants { resourceType, resourceId, userId := user, teamIds := principal.teamIds, now } =
      others.resourceGrants { resourceType, resourceId, userId := user, teamIds := principal.teamIds, now }

theorem Follows.agreeFor {other : Directory} (follows : facts.Follows directory) (otherFollows : others.Follows other)
    (standing : directory.standing user = other.standing user)
    (verification : directory.verification user = other.verification user)
    (verificationRequired : directory.verificationRequired = other.verificationRequired) :
    facts.AgreeFor others user where
  standing := by rw [follows.standing, otherFollows.standing, standing]
  verification principal present := by
    rw [follows.userId present, follows.verification, otherFollows.verification, verification]
  verificationRequired := by rw [follows.verificationRequired, otherFollows.verificationRequired, verificationRequired]

end StoreFacts

namespace Store

variable [Store σ] [Store τ] {left : σ} {right : τ} {facts others : StoreFacts} {registry : Registry}
  {config : CheckerConfig} {user : UserId} {resourceType resourceId : String} {permission : PermissionId}
  {now : Timestamp}

theorem load_congr (leftGives : Gives left facts) (rightGives : Gives right others)
    (agree : facts.AgreeFor others user) :
    (Checker.on registry config left).loader.load user = (Checker.on registry config right).loader.load user := by
  unfold Loader.load Loader.verificationPending
  simp only [Checker.loader, Checker.on, source, leftGives.principal, rightGives.principal,
    leftGives.verification, rightGives.verification, leftGives.verificationRequired,
    rightGives.verificationRequired, bind_load_ok, agree.verificationRequired]
  have standing := agree.standing
  have verification := agree.verification
  cases found : facts.principal user with
  | none =>
    cases other : others.principal user with
    | none => rfl
    | some second => simp [found, other] at standing
  | some first =>
    cases other : others.principal user with
    | none => simp [found, other] at standing
    | some second =>
      have same : first.standing = second.standing := by simpa [found, other] using standing
      have sameId : first.userId = second.userId := congrArg Standing.userId same
      have sameVerification := verification first found
      have sameRoot : first.isRoot = second.isRoot := congrArg Standing.isRoot same
      have sameProvider : first.provider = second.provider := congrArg Standing.provider same
      have sameTeams : first.teamIds = second.teamIds := congrArg Standing.teamIds same
      have samePermissions : first.rolePermissions = second.rolePermissions :=
        congrArg Standing.rolePermissions same
      rw [sameId] at sameVerification
      simp only [sameRoot, sameProvider, sameTeams, samePermissions, sameId, sameVerification]
      rfl

theorem loadForResource_congr (leftGives : Gives left facts) (rightGives : Gives right others)
    (agree : facts.AgreeFor others user)
    (sameGrants : facts.SameGrants others user resourceType resourceId now) :
    (Checker.on registry config left).loader.loadForResource user resourceType resourceId now =
      (Checker.on registry config right).loader.loadForResource user resourceType resourceId now := by
  unfold Loader.loadForResource
  rw [← load_congr leftGives rightGives agree]
  refine Transition.bind_congr fun elapsed grants returned => ?_
  have sameExpansion : (Checker.on registry config left).loader.resourcePermissions grants resourceType resourceId now =
      (Checker.on registry config right).loader.resourcePermissions grants resourceType resourceId now := by
    unfold Loader.resourcePermissions
    by_cases withheld : (grants.isRoot || grants.verificationPending) = true
    · rw [if_pos withheld, if_pos withheld]
    · obtain ⟨principal, present, _, _, sameUser, sameTeams⟩ :=
        (leftGives.load_returns returned).resolve_left withheld
      rw [if_neg withheld, if_neg withheld, sameUser, sameTeams]
      simp only [Checker.loader, Checker.on, source, leftGives.resourceGrants, rightGives.resourceGrants,
        sameGrants principal present]
      rfl
  rw [sameExpansion]

theorem explain_congr (leftGives : Gives left facts) (rightGives : Gives right others)
    (agree : facts.AgreeFor others user) :
    (Checker.on registry config left).explain user permission =
      (Checker.on registry config right).explain user permission := by
  unfold Checker.explain
  rw [load_congr leftGives rightGives agree]
  rfl

theorem explainResource_congr (leftGives : Gives left facts) (rightGives : Gives right others)
    (agree : facts.AgreeFor others user)
    (sameGrants : facts.SameGrants others user resourceType resourceId now) :
    (Checker.on registry config left).explainResource user resourceType resourceId permission now =
      (Checker.on registry config right).explainResource user resourceType resourceId permission now := by
  unfold Checker.explainResource
  rw [loadForResource_congr leftGives rightGives agree sameGrants]
  rfl

end Store

/-- A store that is known by its directory and its grants on resources, and how each write changes these. -/
class DirectoryStore (σ : Type) [Store σ] where
  /-- What has to hold for the directory to tell what is loaded. -/
  Sound : σ → Prop
  facts : σ → StoreFacts
  directory : σ → Directory
  /-- What becomes of the provider of a user. -/
  keep : AuthProvider → AuthProvider
  gives : ∀ store, Store.Gives store (facts store)
  follows : ∀ store, Sound store → (facts store).Follows (directory store)
  sound_empty : Sound Store.empty
  sound_step : ∀ store change, Sound store → Sound (Store.step store change)
  directory_empty : directory Store.empty = .empty
  directory_outcome : ∀ store change, Store.receipt store change = none ∧ Store.step store change = store ∨
    directory (Store.step store change) = (directory store).apply keep change
  resourceGrants_step : ∀ store change query, (∀ key, Write.grantKey? change = some key → ¬ query.Concerns key) →
    (facts (Store.step store change)).resourceGrants query = (facts store).resourceGrants query
  grant_kept : ∀ store change grant, grant ∈ (facts store).grants → Write.grantKey? change ≠ some grant.toGrantKey →
    grant ∈ (facts (Store.step store change)).grants
  grant_placed : ∀ store grant, grant ∈ (facts (Store.step store (.grant grant))).grants

instance : DirectoryStore MemoryStore where
  Sound _ := True
  facts := MemoryStore.facts
  directory := MemoryStore.directory
  keep := id
  gives := MemoryStore.gives
  follows store _ := store.follows
  sound_empty := trivial
  sound_step _ _ _ := trivial
  directory_empty := MemoryStore.directory_empty
  directory_outcome := MemoryStore.directory_outcome
  resourceGrants_step store _ _ unconcerned := congrArg Except.ok (store.resourceGrants_step unconcerned)
  grant_kept store _ _ := store.grant_kept
  grant_placed store grant := store.grant_placed grant

instance : DirectoryStore Database where
  Sound := Database.Referential
  facts := Database.facts
  directory := Database.directory
  keep provider := .ofName provider.name
  gives := Database.gives
  follows _ := Database.Referential.follows
  sound_empty := Database.Referential.blank.prepare
  sound_step _ change referential := referential.step change
  directory_empty := Database.directory_empty
  directory_outcome := Database.directory_outcome
  resourceGrants_step tables _ _ unconcerned := StoreFacts.resourceGrants_congr rfl (tables.grantsFor_step unconcerned)
  grant_kept tables _ _ := tables.grant_kept
  grant_placed tables grant := tables.grant_placed grant

namespace DirectoryStore

variable [Store σ] [DirectoryStore σ]

theorem directory_step (store : σ) (change : Write) :
    Store.step store change = store ∨
      directory (Store.step store change) = (directory store).apply (keep σ) change :=
  (directory_outcome store change).imp_left And.right

/-- If no write is refused, the directory after all of them is what they say one after the other. -/
theorem directory_after {store : σ} {changes : List Write} (takes : Store.Takes store changes) :
    directory (Store.after store changes) = changes.foldl (Directory.apply (keep σ)) (directory store) := by
  induction changes generalizing store with
  | nil => rfl
  | cons change rest ih =>
    obtain ⟨taken, later⟩ := Store.takes_cons.mp takes
    rcases directory_outcome store change with ⟨refused, _⟩ | changed
    · exact absurd refused taken
    · rw [List.foldl_cons, ← changed]
      exact ih later

end DirectoryStore

end AccessControl
