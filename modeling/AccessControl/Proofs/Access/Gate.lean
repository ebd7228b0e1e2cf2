import AccessControl.Proofs.Access.Standing
import AccessControl.Proofs.Directory.History

namespace AccessControl

/-- A provider is lost in its name just if it has borrowed the name. -/
theorem AuthProvider.ofName_name_iff (provider : AuthProvider) :
    ofName provider.name = provider ↔ ∀ name ∈ ["local", "oidc", "saml", "ldap"], provider ≠ .other name := by
  cases provider with
  | other name =>
    simp only [AuthProvider.name, List.mem_cons, List.not_mem_nil, or_false, ne_eq, other.injEq]
    unfold ofName
    grind
  | _ => simp [ofName, AuthProvider.name]

def Loading.ReturnsPending (loading : Loading UserGrants) : Prop :=
  ∃ grants, loading.result = .ok grants ∧ grants.verificationPending = true

theorem StoreFacts.Loads.returnsPending_iff {facts : StoreFacts} {registry : Registry} {enforced : Bool}
    {user : UserId} {principal : Principal} {extra : Principal → Set PermissionId} {within : Duration}
    {loading : Loading UserGrants} {outcome : Except LoadError UserGrants}
    (shape : facts.Loads registry enforced user extra outcome) (settles : loading.Settles outcome within)
    (present : facts.principal user = some principal) :
    loading.ReturnsPending ↔ principal.isRoot = false ∧ facts.Pending enforced principal := by
  rw [Loading.ReturnsPending, settles.result_eq]
  by_cases isRoot : principal.isRoot = true
  · rw [shape.eq_root present isRoot]
    simp [UserGrants.root, isRoot]
  have notRoot : principal.isRoot = false := by simpa using isRoot
  by_cases pending : facts.Pending enforced principal
  · rw [shape.eq_pending present notRoot pending]
    simp [UserGrants.pending, notRoot, pending]
  · rcases shape.eq_granted present notRoot pending with ⟨_, granted, _⟩ | ⟨_, _, _, failed⟩
    · rw [granted]
      simp [UserGrants.granted, pending]
    · rw [failed]
      simp [pending]

/-- By the last of these writes, verification is required, the user was asked for it and has not given it since, and
the user's provider is the one of whose users it is required. -/
structure Unverified (changes : List Write) (user : UserId) (provider : AuthProvider) : Prop where
  signsInHere : provider = .localAccounts
  required : lastTold Write.requirement? changes = some true
  asked : lastTold (Write.verification? user) changes = some none

namespace Store

/-- The user is loaded with this provider, and a loader that enforces verification returns pending grants just if the
user is not root and, going by that provider, unverified. -/
def GateFollows [Store σ] (store : σ) (changes : List Write) (user : UserId) (provider : AuthProvider) : Prop :=
  ∃ principal, loadPrincipal store user = .ok (some principal) ∧ principal.provider = provider ∧
    ∀ registry enforceVerification,
      let loader : Loader := ⟨registry, source store, enforceVerification⟩
      let withheld := enforceVerification = true ∧ principal.isRoot = false ∧ Unverified changes user provider
      ((loader.load user).ReturnsPending ↔ withheld) ∧
        ∀ resourceType resourceId now,
          (loader.loadForResource user resourceType resourceId now).ReturnsPending ↔ withheld

theorem GateFollows.unique [Store σ] {store : σ} {changes : List Write} {user : UserId} {provider other : AuthProvider}
    (follows : GateFollows store changes user provider) (others : GateFollows store changes user other) :
    provider = other := by
  obtain ⟨principal, loaded, rfl, _⟩ := follows
  obtain ⟨again, reloaded, rfl, _⟩ := others
  rw [loaded, Except.ok.injEq, Option.some.injEq] at reloaded
  rw [reloaded]

open DirectoryStore

variable [Store σ] [DirectoryStore σ] {changes : List Write} {user : UserId} {provider : AuthProvider}

theorem follows_after (takes : Takes (empty : σ) changes) :
    (facts (after (empty : σ) changes)).Follows (changes.foldl (Directory.apply (keep σ)) .empty) := by
  have sound : Sound (after (empty : σ) changes) :=
    after_keeps (fun change _ store => sound_step store change) sound_empty
  rw [← directory_empty (σ := σ), ← directory_after takes]
  exact follows _ sound

/-- Whether a user is asked to verify goes by the last writes, as it does by what the store tells. -/
theorem pending_iff_unverified {facts : StoreFacts} {keep : AuthProvider → AuthProvider} {principal : Principal}
    (follows : facts.Follows (changes.foldl (Directory.apply keep) .empty))
    (present : facts.principal user = some principal) (enforced : Bool) :
    facts.Pending enforced principal ↔ enforced = true ∧ Unverified changes user principal.provider := by
  have required : facts.verificationRequired = true ↔ lastTold Write.requirement? changes = some true := by
    rw [follows.verificationRequired, Directory.verificationRequired_foldl_apply]
    cases lastTold Write.requirement? changes <;> simp [Directory.empty]
  have record : facts.verification user =
      (lastTold (Write.verification? user) changes).map fun verifiedAt => ⟨user, verifiedAt⟩ := by
    rw [follows.verification, Directory.verification_foldl_apply]
    cases lastTold (Write.verification? user) changes <;> rfl
  rw [StoreFacts.Pending, follows.userId present, required, record]
  constructor
  · rintro ⟨enforced, signsInHere, required, _, recorded, notDone⟩
    obtain ⟨verifiedAt, asked, rfl⟩ := Option.map_eq_some_iff.mp recorded
    obtain rfl : verifiedAt = none := notDone
    exact ⟨enforced, signsInHere, required, asked⟩
  · rintro ⟨enforced, signsInHere, required, asked⟩
    exact ⟨enforced, signsInHere, required, ⟨user, none⟩, by rw [asked, Option.map_some], rfl⟩

theorem gateFollows_after (takes : Takes (empty : σ) changes)
    (written : lastTold (Write.provider? user) changes = some provider) :
    GateFollows (after (empty : σ) changes) changes user (keep σ provider) := by
  have gives := gives (after (empty : σ) changes)
  have follows := follows_after takes
  have providers := Directory.provider_foldl_apply (keep σ) .empty changes user
  rw [written] at providers
  obtain ⟨account, found, same⟩ := Option.map_eq_some_iff.mp providers
  obtain ⟨principal, present⟩ := follows.present found
  have kept : principal.provider = keep σ provider := by
    rw [← same]
    exact congrArg Account.provider (Option.some.inj ((follows.account present).symm.trans found))
  have unverified := pending_iff_unverified follows present
  rw [kept] at unverified
  refine ⟨principal, gives.principal user ▸ congrArg Except.ok present, kept, fun registry enforced => ?_⟩
  let loader : Loader := ⟨registry, source (after (empty : σ) changes), enforced⟩
  constructor
  · obtain ⟨outcome, settles, shape⟩ := loader.load_outcome gives.tells user
    rw [shape.returnsPending_iff settles present, unverified, and_left_comm]
  · intro resourceType resourceId now
    obtain ⟨outcome, settles, ⟨_, shape⟩ | ⟨refused, error, rfl⟩⟩ :=
      loader.loadForResource_outcome gives.tells user resourceType resourceId now
    · rw [shape.returnsPending_iff settles present, unverified, and_left_comm]
    · rw [Loading.ReturnsPending, settles.result_eq]
      refine iff_of_false (fun returns => by cases returns.choose_spec.1) fun withheld => refused ?_
      have pending := (unverified enforced).mpr ⟨withheld.1, withheld.2.2⟩
      exact StoreFacts.answers_of_withheld present (.inr pending)

/-- After writes that are all taken, in memory the gate follows the provider that was written last for the user. In
tables it follows the provider of that name, which is the one that was written unless that has borrowed its name. -/
theorem gate_follows_provider (changes : List Write) (user : UserId) (provider : AuthProvider)
    (written : lastTold (Write.provider? user) changes = some provider) :
    (Takes (empty : MemoryStore) changes → GateFollows (after (empty : MemoryStore) changes) changes user provider) ∧
    (Takes (empty : Database) changes →
      GateFollows (after (empty : Database) changes) changes user (.ofName provider.name) ∧
      (GateFollows (after (empty : Database) changes) changes user provider ↔
        ∀ name ∈ ["local", "oidc", "saml", "ldap"], provider ≠ .other name)) := by
  refine ⟨fun takes => gateFollows_after takes written, fun takes => ?_⟩
  have named : GateFollows (after (empty : Database) changes) changes user (.ofName provider.name) :=
    gateFollows_after takes written
  refine ⟨named, ?_⟩
  rw [← provider.ofName_name_iff]
  exact ⟨fun follows => named.unique follows, fun same => same ▸ named⟩

/-- A user is asked to verify before anyone has to, and signs in elsewhere at first. -/
def signup : List Write :=
  [.addUser "ann" .oidc, .setVerification "ann" none, .addUser "ann" .localAccounts, .addUser "bob" (.other "radius"),
    .requireVerification true, .setVerification "bob" none]

theorem signup_asks_ann :
    Takes (empty : MemoryStore) signup ∧ Takes (empty : Database) signup ∧
      lastTold (Write.provider? "ann") signup = some .localAccounts ∧ Unverified signup "ann" .localAccounts ∧
      GateFollows (after (empty : MemoryStore) signup) signup "ann" .localAccounts ∧
      GateFollows (after (empty : Database) signup) signup "ann" .localAccounts ∧
      lastTold (Write.provider? "bob") signup = some (.other "radius") ∧
      GateFollows (after (empty : Database) signup) signup "bob" (.other "radius") := by
  have inMemory : Takes (empty : MemoryStore) signup := by decide
  have inTables : Takes (empty : Database) signup := by decide
  have ann : lastTold (Write.provider? "ann") signup = some .localAccounts := by decide
  have bob : lastTold (Write.provider? "bob") signup = some (.other "radius") := by decide
  obtain ⟨memoryFollows, tablesFollow⟩ := gate_follows_provider signup "ann" .localAccounts ann
  exact ⟨inMemory, inTables, ann, ⟨rfl, by decide, by decide⟩, memoryFollows inMemory, (tablesFollow inTables).1, bob,
    ((gate_follows_provider signup "bob" (.other "radius") bob).2 inTables).2.mpr (by decide)⟩

/-- In tables a provider that has borrowed its name is taken for the one whose name it is, and its user is kept from
everything until an address is verified. -/
theorem borrowed_name_gated :
    let changes := [Write.addUser "bob" (.other "local"), .requireVerification true, .setVerification "bob" none]
    Takes (empty : Database) changes ∧ lastTold (Write.provider? "bob") changes = some (.other "local") ∧
      (∃ principal, loadPrincipal (after (empty : Database) changes) "bob" = .ok (some principal) ∧
        principal.provider = .localAccounts) ∧
      (Loader.load ⟨.empty, source (after (empty : Database) changes), true⟩ "bob").ReturnsPending := by
  intro changes
  have takes : Takes (empty : Database) changes := by decide
  have written : lastTold (Write.provider? "bob") changes = some (.other "local") := by decide
  obtain ⟨principal, loaded, kept, gate⟩ := gateFollows_after takes written
  have notRoot : ((after (empty : Database) changes).loadPrincipal "bob").map Principal.isRoot = some false := by decide
  have notRoot : principal.isRoot = false := by
    rw [Except.ok.inj loaded] at notRoot
    exact Option.some.inj notRoot
  exact ⟨takes, written, ⟨principal, loaded, kept⟩,
    (gate .empty true).1.mpr ⟨rfl, notRoot, rfl, by decide, by decide⟩⟩

end Store

end AccessControl
