import AccessControl.Proofs.Access.Growth
import AccessControl.Proofs.Access.Standing

namespace AccessControl

open Std Function

/-- The write gives something to someone, or takes a requirement away, and takes nothing from anyone at that time. -/
def Write.IsAdditive (now : Timestamp) : Write → Prop
  | .assignRole _ _ | .addRolePermission _ _ | .addTeamMember _ _ | .assignTeamRole _ _ => True
  | .setRoot _ isRoot => isRoot = true
  | .setVerification _ verifiedAt => verifiedAt.isSome = true
  | .requireVerification required => required = false
  | .grant placed => placed.isActive now = true
  | .addUser _ _ | .addRole _ _ | .addTeam _ _ | .revoke _ | .upsertPermissions _ => False

namespace Directory

variable {directory other third : Directory} {user : UserId} {role : RoleId} {change : Write} {now : Timestamp}
  {keep : AuthProvider → AuthProvider}

/-- Everyone has in the other directory all that they have in this one. -/
structure Within (directory other : Directory) : Prop where
  account : ∀ user account, directory.account user = some account → ∃ later, other.account user = some later ∧
    later.provider = account.provider ∧ (account.isRoot = true → later.isRoot = true)
  roles : ∀ user, ∀ role ∈ directory.roles user, role ∈ other.roles user
  teams : ∀ user, ∀ team ∈ directory.teams user, team ∈ other.teams user
  teamRoles : ∀ team, ∀ role ∈ directory.teamRoles team, role ∈ other.teamRoles team
  permissions : ∀ role, ∀ id ∈ directory.permissions role, id ∈ other.permissions role
  /-- Only who was asked before and has not verified an address still has to. -/
  verification : ∀ user record, other.verification user = some record → record.verifiedAt = none →
    directory.verification user = some record
  verificationRequired : other.verificationRequired = true → directory.verificationRequired = true

namespace Within

theorem refl (directory : Directory) : Within directory directory where
  account _ account found := ⟨account, found, rfl, id⟩
  roles _ _ := id
  teams _ _ := id
  teamRoles _ _ := id
  permissions _ _ := id
  verification _ _ found _ := found
  verificationRequired := id

theorem trans (first : Within directory other) (second : Within other third) : Within directory third where
  account user account found := by
    obtain ⟨between, foundBetween, sameProvider, root⟩ := first.account user account found
    obtain ⟨later, foundLater, stillSame, stillRoot⟩ := second.account user between foundBetween
    exact ⟨later, foundLater, stillSame.trans sameProvider, stillRoot ∘ root⟩
  roles user role member := second.roles user role (first.roles user role member)
  teams user team member := second.teams user team (first.teams user team member)
  teamRoles team role member := second.teamRoles team role (first.teamRoles team role member)
  permissions role id member := second.permissions role id (first.permissions role id member)
  verification user record found unverified :=
    first.verification user record (second.verification user record found unverified) unverified
  verificationRequired := first.verificationRequired ∘ second.verificationRequired

theorem apply (additive : change.IsAdditive now) : Within directory (directory.apply keep change) := by
  have same := refl directory
  cases change with
  | assignRole user role => exact { same with roles := fun _ _ member => mem_update_insert.mpr (.inl member) }
  | addRolePermission role permission => exact { same with permissions := fun _ _ member => mem_update_insert.mpr (.inl member) }
  | addTeamMember team user => exact { same with teams := fun _ _ member => mem_update_insert.mpr (.inl member) }
  | assignTeamRole team role => exact { same with teamRoles := fun _ _ member => mem_update_insert.mpr (.inl member) }
  | setRoot id isRoot =>
    obtain rfl : isRoot = true := additive
    refine { same with account := fun user account found => ?_ }
    by_cases here : user = id
    · subst here
      exact ⟨{ account with isRoot := true }, by simp [Directory.apply, found], rfl, fun _ => rfl⟩
    · exact ⟨account, by simp [Directory.apply, here, found], rfl, fun root => root⟩
  | setVerification id verifiedAt =>
    obtain ⟨time, rfl⟩ := Option.isSome_iff_exists.mp additive
    refine { same with verification := fun user record found unverified => ?_ }
    by_cases here : user = id
    · subst here
      obtain rfl : ⟨user, some time⟩ = record := by simpa [Directory.apply] using found
      cases unverified
    · simpa [Directory.apply, here] using found
  | requireVerification required =>
    obtain rfl : required = false := additive
    exact { same with verificationRequired := fun required => absurd required Bool.false_ne_true }
  | grant placed => exact same
  | addUser | addRole | addTeam | revoke | upsertPermissions => exact additive.elim

theorem carries (within : Within directory other) (carried : directory.Carries user role) : other.Carries user role := by
  rcases carried with own | ⟨team, member, shared⟩
  · exact .inl (within.roles user role own)
  · exact .inr ⟨team, within.teams user team member, within.teamRoles team role shared⟩

end Within

end Directory

namespace StoreFacts

variable {facts later : StoreFacts} {directory other : Directory} {user : UserId} {enforced : Bool}
  {resourceType resourceId : String} {now : Timestamp} {extra more : Principal → Set PermissionId}
  {principal after : Principal}

/-- Whatever grant counts at the time, one of its key still counts. -/
def KeepsGrants (facts later : StoreFacts) (now : Timestamp) : Prop :=
  ∀ grant ∈ facts.grants, grant.isActive now = true →
    ∃ kept ∈ later.grants, kept.toGrantKey = grant.toGrantKey ∧ kept.isActive now = true

theorem Follows.mem_teams (follows : facts.Follows directory) (present : facts.principal user = some principal)
    {id : TeamId} : (∃ team ∈ principal.teams, team.id = id) ↔ id ∈ directory.teams user := by
  rw [← ExtTreeSet.mem_toList, ← follows.teamIds present, Principal.teamIds, List.mem_map]

theorem permissionsOn_mono (follows : facts.Follows directory) (laterFollows : later.Follows other)
    (within : directory.Within other) (keeps : facts.KeepsGrants later now)
    (before : facts.principal user = some principal) (present : later.principal user = some after) :
    facts.permissionsOn user resourceType resourceId now principal ⊆
      later.permissionsOn user resourceType resourceId now after := by
  rintro id ⟨grant, held, sameType, sameId, holder, active, rfl⟩
  obtain ⟨kept, stored, sameKey, stillActive⟩ := keeps grant held (ResourceGrant.isActive_iff.mpr active)
  refine ⟨kept, stored, ?_, ?_, ?_, ResourceGrant.isActive_iff.mp stillActive, congrArg GrantKey.permission sameKey⟩
  · rw [sameKey, sameType]
  · rw [sameKey, sameId]
  · rw [sameKey]
    rcases holder with isUser | ⟨team, member, isTeam⟩
    · exact .inl isUser
    · have inTeam := within.teams user team.id ((follows.mem_teams before).mp ⟨team, member, rfl⟩)
      obtain ⟨still, stillMember, same⟩ := (laterFollows.mem_teams present).mpr inTeam
      exact .inr ⟨still, stillMember, by rw [isTeam, same]⟩

/-- Who has at least as much in the later directory has lost nothing, given that no more is lost besides the roles. -/
theorem Follows.grows (follows : facts.Follows directory) (laterFollows : later.Follows other)
    (within : directory.Within other)
    (besides : ∀ principal after, facts.principal user = some principal → later.principal user = some after →
      extra principal ⊆ more after) : facts.Grows later enforced user extra more := by
  intro principal before
  obtain ⟨account, found, sameProvider, root⟩ := within.account user _ (follows.account before)
  obtain ⟨after, present⟩ := laterFollows.present found
  obtain rfl : ⟨after.isRoot, after.provider⟩ = account :=
    Option.some.inj ((laterFollows.account present).symm.trans found)
  refine ⟨after, present, root, ?_, Set.union_subset_union ?_ (besides principal after before present)⟩
  · rintro ⟨isEnforced, isLocal, required, record, recorded, unverified⟩
    rw [laterFollows.verification, laterFollows.userId present] at recorded
    rw [laterFollows.verificationRequired] at required
    refine ⟨isEnforced, sameProvider.symm.trans isLocal, ?_, record, ?_, unverified⟩
    · rw [follows.verificationRequired]
      exact within.verificationRequired required
    · rw [follows.verification, follows.userId before]
      exact within.verification user record recorded unverified
  · intro id held
    obtain ⟨role, carried, granted⟩ := (follows.mem_permissions before).mp held
    exact (laterFollows.mem_permissions present).mpr ⟨role, within.carries carried, within.permissions role id granted⟩

end StoreFacts

namespace Store

/-- What a user was allowed before is allowed after, wherever it is answered, and what was listed is still listed. -/
structure AllowsMore [Store σ] (before after : σ) (registry : Registry) (config : CheckerConfig) (user : UserId)
    (now : Timestamp) : Prop where
  explain : ∀ permission decision later,
    (Checker.on registry config before).explain user permission = .ok decision → decision.allowed = true →
    (Checker.on registry config after).explain user permission = .ok later → later.allowed = true
  explainResource : ∀ resourceType resourceId permission decision later,
    (Checker.on registry config before).explainResource user resourceType resourceId permission now = .ok decision →
    decision.allowed = true →
    (Checker.on registry config after).explainResource user resourceType resourceId permission now = .ok later →
    later.allowed = true
  userPermissions : ∀ ids later, (Checker.on registry config before).userPermissions user = .ok ids →
    (Checker.on registry config after).userPermissions user = .ok later → ids ⊆ later
  resourcePermissions : ∀ resourceType resourceId ids later,
    (Checker.on registry config before).resourcePermissions user resourceType resourceId now = .ok ids →
    (Checker.on registry config after).resourcePermissions user resourceType resourceId now = .ok later → ids ⊆ later

section

open DirectoryStore

variable [Store σ] [DirectoryStore σ] {before after store : σ} {registry : Registry} {config : CheckerConfig}
  {user : UserId} {resourceType resourceId : String} {permission : PermissionId} {now : Timestamp} {change : Write}
  {changes : List Write}

/-- A later state in which nothing has been taken from anyone. -/
structure Enlarged (now : Timestamp) (before after : σ) : Prop where
  sound : Sound after
  within : (directory before).Within (directory after)
  grants : (facts before).KeepsGrants (facts after) now

theorem Enlarged.allowsMore (enlarged : Enlarged now before after) (sound : Sound before) (registry : Registry)
    (config : CheckerConfig) (user : UserId) : AllowsMore before after registry config user now := by
  have follows := follows before sound
  have laterFollows := DirectoryStore.follows after enlarged.sound
  have tells : (Checker.on registry config before).source.Tells (facts before) .none := (gives before).tells
  have laterTells : (Checker.on registry config after).source.Tells (facts after) .none := (gives after).tells
  have inTime := Checker.inTime_on registry config before
  have laterInTime := Checker.inTime_on registry config after
  have anywhere : (facts before).Grows (facts after) config.enforceVerification user (fun _ => ∅) (fun _ => ∅) :=
    follows.grows laterFollows enlarged.within fun _ _ _ _ => subset_rfl
  have onResource (resourceType resourceId : String) : (facts before).Grows (facts after) config.enforceVerification user
      ((facts before).permissionsOn user resourceType resourceId now)
      ((facts after).permissionsOn user resourceType resourceId now) :=
    follows.grows laterFollows enlarged.within fun _ _ present laterPresent =>
      StoreFacts.permissionsOn_mono follows laterFollows enlarged.within enlarged.grants present laterPresent
  refine ⟨?_, ?_, ?_, ?_⟩
  · intro permission decision later answered allowed laterAnswered
    obtain ⟨_, shape, decided⟩ := Checker.explain_eq_ok tells inTime answered
    obtain ⟨_, laterShape, laterDecided⟩ := Checker.explain_eq_ok laterTells laterInTime laterAnswered
    exact Checker.decideLoaded_grows rfl shape laterShape anywhere decided allowed laterDecided
  · intro resourceType resourceId permission decision later answered allowed laterAnswered
    obtain ⟨_, shape, decided⟩ := Checker.explainResource_eq_ok tells inTime answered
    obtain ⟨_, laterShape, laterDecided⟩ := Checker.explainResource_eq_ok laterTells laterInTime laterAnswered
    exact Checker.decideLoaded_grows rfl shape laterShape (onResource resourceType resourceId) decided allowed laterDecided
  · intro ids later listed laterListed
    obtain ⟨_, shape, rfl⟩ := Checker.userPermissions_eq_ok tells inTime listed
    obtain ⟨_, laterShape, rfl⟩ := Checker.userPermissions_eq_ok laterTells laterInTime laterListed
    exact Checker.effective_grows rfl shape laterShape anywhere
  · intro resourceType resourceId ids later listed laterListed
    obtain ⟨_, shape, rfl⟩ := Checker.resourcePermissions_eq_ok tells inTime listed
    obtain ⟨_, laterShape, rfl⟩ := Checker.resourcePermissions_eq_ok laterTells laterInTime laterListed
    exact Checker.effective_grows rfl shape laterShape (onResource resourceType resourceId)

/-- A grant that is placed over another may be one that ends sooner, but not one that has ended. -/
theorem Enlarged.step (enlarged : Enlarged now before after) (additive : change.IsAdditive now) :
    Enlarged now before (Store.step after change) := by
  refine ⟨sound_step after change enlarged.sound, ?_, ?_⟩
  · rcases directory_step after change with refused | taken
    · rw [refused]
      exact enlarged.within
    · rw [taken]
      exact enlarged.within.trans (.apply additive)
  · intro grant held active
    obtain ⟨kept, stored, sameKey, stillActive⟩ := enlarged.grants grant held active
    by_cases placedOver : Write.grantKey? change = some kept.toGrantKey
    · cases change with
      | grant placed =>
        have replaces : placed.toGrantKey = kept.toGrantKey := Option.some.inj placedOver
        exact ⟨placed, grant_placed after placed, replaces.trans sameKey, additive⟩
      | revoke => exact additive.elim
      | _ => cases placedOver
    · exact ⟨kept, grant_kept after change kept stored placedOver, sameKey, stillActive⟩

theorem enlarged_after (sound : Sound store) (additive : ∀ change ∈ changes, change.IsAdditive now) :
    Enlarged now store (Store.after store changes) :=
  after_keeps (fun change member _ enlarged => enlarged.step (additive change member))
    ⟨sound, .refl _, fun grant held active => ⟨grant, held, rfl, active⟩⟩

theorem allowsMore_after (store : σ) (sound : Sound store) (additive : ∀ change ∈ changes, change.IsAdditive now)
    (registry : Registry) (config : CheckerConfig) (user : UserId) :
    AllowsMore store (Store.after store changes) registry config user now :=
  (enlarged_after sound additive).allowsMore sound registry config user

/-- Grants on a resource only add to what is allowed everywhere. -/
theorem checkResource_of_check (store : σ) {answer : Bool}
    (allowed : (Checker.on registry config store).check user permission = .ok true)
    (answered : (Checker.on registry config store).checkResource user resourceType resourceId permission now = .ok answer) :
    answer = true := by
  have tells : (Checker.on registry config store).source.Tells (facts store) .none := (gives store).tells
  have inTime := Checker.inTime_on registry config store
  have grows : (facts store).Grows (facts store) config.enforceVerification user (fun _ => ∅)
      ((facts store).permissionsOn user resourceType resourceId now) := .of_subset fun _ => Set.empty_subset _
  obtain ⟨decision, explained, isAllowed⟩ := Checker.map_allowed_eq_true_iff.mp allowed
  obtain ⟨later, explainedThere, same⟩ := Checker.bind_eq_ok answered
  obtain ⟨_, shape, decided⟩ := Checker.explain_eq_ok tells inTime explained
  obtain ⟨_, laterShape, laterDecided⟩ := Checker.explainResource_eq_ok tells inTime explainedThere
  have stillAllowed := Checker.decideLoaded_grows rfl shape laterShape grows decided isAllowed laterDecided
  exact (Except.ok.inj same).symm.trans stillAllowed

end

/-- Additive writes, taken or refused, revoke nothing: not from the user who is given something and not from others.
And on no resource is anyone denied what the same user is allowed everywhere. -/
theorem granting_never_revokes (registry : Registry) (config : CheckerConfig) (user : UserId) (now : Timestamp) :
    (∀ changes : List Write, (∀ change ∈ changes, change.IsAdditive now) →
      (∀ store : MemoryStore, AllowsMore store (after store changes) registry config user now) ∧
      ∀ tables : Database, tables.Referential → AllowsMore tables (after tables changes) registry config user now) ∧
    ∀ resourceType resourceId permission answer,
      (∀ store : MemoryStore, (Checker.on registry config store).check user permission = .ok true →
        (Checker.on registry config store).checkResource user resourceType resourceId permission now = .ok answer →
        answer = true) ∧
      ∀ tables : Database, (Checker.on registry config tables).check user permission = .ok true →
        (Checker.on registry config tables).checkResource user resourceType resourceId permission now = .ok answer →
        answer = true := by
  refine ⟨fun changes additive => ⟨fun store => ?_, fun tables referential => ?_⟩, ?_⟩
  · exact allowsMore_after store trivial additive registry config user
  · exact allowsMore_after tables referential additive registry config user
  · intro resourceType resourceId permission answer
    exact ⟨fun store => checkResource_of_check store, fun tables => checkResource_of_check tables⟩

/-- One editor, who may also read one document until some time. -/
def editorial : List Write :=
  [.addUser "ann" .localAccounts, .addRole "editor" ["edit"], .assignRole "ann" "editor",
    .grant ⟨⟨"doc", "7", ⟨.user, "ann"⟩, "read"⟩, some 9⟩]

/-- The grant is placed again and ends sooner; who is not there cannot be made root. -/
def promotion : List Write :=
  [.addRolePermission "editor" "read", .setVerification "ann" (some 2), .requireVerification false,
    .grant ⟨⟨"doc", "7", ⟨.user, "ann"⟩, "read"⟩, some 5⟩, .setRoot "bob" true]

def editor : Principal := ⟨"ann", false, .localAccounts, [⟨"editor", "editor", ["edit"]⟩], []⟩

theorem editorial_allows :
    (after (empty : Database) editorial).facts.Allows .editing true "ann" (fun _ => ∅) "edit" := by
  have present : (after (empty : Database) editorial).facts.principal "ann" = some editor := by decide
  have optional : (after (empty : Database) editorial).facts.verificationRequired = false := by decide
  have held : ∀ id, id ∈ editor.permissions ∪ ∅ ↔ id = "edit" := by
    simp [Principal.permissions, editor]
  refine ⟨editor, present, .inr ⟨fun pending => ?_, ?_, ?_, ?_⟩⟩
  · rw [StoreFacts.Pending, optional] at pending
    cases pending.2.2.1
  · refine fun id => Registry.editing_safe.mem_of_implied fun root given => ?_
    rw [(held root).mp given]
    simp [Registry.editing]
  · exact Registry.editing_safe.resolvable (by simp [Registry.editing])
  · have edits : "edit" ∈ Registry.editing.impliedBy (editor.permissions ∪ ∅) :=
      Registry.subset_impliedBy ((held "edit").mpr rfl)
    intro id needed
    rcases needed with rfl | required
    · exact edits
    · obtain ⟨_, rfl⟩ := Registry.mem_editing_requirements_iff.mp required
      exact Registry.implied_mem_impliedBy edits (Registry.editing_implies_iff.mpr ⟨rfl, rfl⟩)

theorem promotion_revokes_nothing :
    (∀ change ∈ promotion, change.IsAdditive 3) ∧ (after (empty : Database) editorial).Referential ∧
      AllowsMore (after (empty : Database) editorial) (after (after empty editorial) promotion) .editing {} "ann" 3 ∧
      (Checker.on .editing {} (after (empty : Database) editorial)).check "ann" "edit" = .ok true ∧
      (Checker.on .editing {} (after (empty : Database) editorial)).checkResource "ann" "doc" "7" "edit" 3 ≠
        .ok false := by
  have additive : ∀ change ∈ promotion, change.IsAdditive 3 := by
    simp [promotion, Write.IsAdditive, ResourceGrant.isActive]
  have referential : (after (empty : Database) editorial).Referential :=
    Database.Referential.blank.prepare.after editorial
  have revokesNothing := granting_never_revokes .editing {} "ann" 3
  have checked : (Checker.on .editing {} (after (empty : Database) editorial)).check "ann" "edit" = .ok true := by
    obtain ⟨outcome, shape, result⟩ := Checker.explain_outcome (Database.gives _).tells
      (Checker.inTime_on .editing {} (after (empty : Database) editorial))
      (show Checker.Given (Checker.globalArguments "ann" "edit") by unfold Checker.Given; decide)
    rw [Checker.check, Checker.map_allowed_eq_true_iff, result, Checker.decideLoaded_allowed_iff shape]
    exact editorial_allows
  refine ⟨additive, referential, (revokesNothing.1 promotion additive).2 _ referential, checked, fun denied => ?_⟩
  cases (revokesNothing.2 "doc" "7" "edit" false).2 _ checked denied

end Store

end AccessControl
