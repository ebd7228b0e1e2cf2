import AccessControl.Proofs.Access.Standing

namespace AccessControl

open Std Function

namespace Directory

variable {directory other third : Directory} {user : UserId} {resourceType resourceId : String} {role : RoleId}
  {change : Write} {keep : AuthProvider → AuthProvider}

/-- A grant of this key is on the resource and for the user or for a team that the user is in. -/
def Reaches (directory : Directory) (user : UserId) (resourceType resourceId : String) (key : GrantKey) : Prop :=
  key.resourceType = resourceType ∧ key.resourceId = resourceId ∧
    (key.holder = ⟨.user, user⟩ ∨ ∃ team ∈ directory.teams user, key.holder = ⟨.team, team⟩)

/-- The write is about someone or something else. -/
def Outside (directory : Directory) (user : UserId) (resourceType resourceId : String) : Write → Prop
  | .addUser other _ | .setRoot other _ | .assignRole other _ | .addTeamMember _ other | .setVerification other _ =>
    other ≠ user
  | .assignTeamRole team _ => team ∉ directory.teams user
  | .addRole role _ | .addRolePermission role _ => ¬ directory.Carries user role
  | .grant grant => ¬ directory.Reaches user resourceType resourceId grant.toGrantKey
  | .revoke key => ¬ directory.Reaches user resourceType resourceId key
  | .addTeam _ _ | .upsertPermissions _ => True
  | .requireVerification _ => False

/-- Two directories say the same of a user and of all that the user has part in. -/
structure SameFor (user : UserId) (directory other : Directory) : Prop where
  account : directory.account user = other.account user
  roles : directory.roles user = other.roles user
  teams : directory.teams user = other.teams user
  teamRoles : ∀ team ∈ directory.teams user, directory.teamRoles team = other.teamRoles team
  permissions : ∀ role, directory.Carries user role → directory.permissions role = other.permissions role
  verification : directory.verification user = other.verification user
  verificationRequired : directory.verificationRequired = other.verificationRequired

namespace SameFor

theorem refl (user : UserId) (directory : Directory) : SameFor user directory directory :=
  ⟨rfl, rfl, rfl, fun _ _ => rfl, fun _ _ => rfl, rfl, rfl⟩

theorem carries_iff (same : SameFor user directory other) : directory.Carries user role ↔ other.Carries user role := by
  unfold Carries
  rw [← same.roles, ← same.teams]
  refine or_congr_right (exists_congr fun team => and_congr_right fun member => ?_)
  rw [same.teamRoles team member]

theorem trans (first : SameFor user directory other) (second : SameFor user other third) :
    SameFor user directory third where
  account := first.account.trans second.account
  roles := first.roles.trans second.roles
  teams := first.teams.trans second.teams
  teamRoles team member := (first.teamRoles team member).trans (second.teamRoles team (first.teams ▸ member))
  permissions role carried := (first.permissions role carried).trans (second.permissions role (first.carries_iff.mp carried))
  verification := first.verification.trans second.verification
  verificationRequired := first.verificationRequired.trans second.verificationRequired

theorem outside_iff (same : SameFor user directory other) (change : Write) :
    directory.Outside user resourceType resourceId change ↔ other.Outside user resourceType resourceId change := by
  cases change with
  | assignTeamRole team role => exact not_congr (by rw [same.teams])
  | addRole role permissions => exact not_congr same.carries_iff
  | addRolePermission role permission => exact not_congr same.carries_iff
  | grant grant => exact not_congr (by unfold Reaches; rw [same.teams])
  | revoke key => exact not_congr (by unfold Reaches; rw [same.teams])
  | _ => exact Iff.rfl

theorem given_eq (same : SameFor user directory other) {roles : ExtTreeSet RoleId}
    (carried : ∀ role ∈ roles, directory.Carries user role) : directory.given roles = other.given roles := by
  refine List.flatMap_congr fun role listed => ?_
  rw [same.permissions role (carried role (ExtTreeSet.mem_toList.mp listed))]

theorem standing_eq (same : SameFor user directory other) : directory.standing user = other.standing user := by
  have byRoles : directory.given (directory.roles user) = other.given (other.roles user) := by
    rw [← same.roles]
    exact same.given_eq fun role member => .inl member
  have byTeams : (directory.teams user).toList.flatMap (fun team => directory.given (directory.teamRoles team)) =
      (other.teams user).toList.flatMap fun team => other.given (other.teamRoles team) := by
    rw [← same.teams]
    refine List.flatMap_congr fun team listed => ?_
    have member : team ∈ directory.teams user := ExtTreeSet.mem_toList.mp listed
    rw [← same.teamRoles team member]
    exact same.given_eq fun role granted => .inr ⟨team, member, granted⟩
  rw [standing, standing, ← same.account, byRoles, byTeams, same.teams]

theorem apply (outside : directory.Outside user resourceType resourceId change) :
    SameFor user directory (directory.apply keep change) := by
  have same := refl user directory
  have elsewhere {α : Type} {fields : UserId → α} {id : UserId} {new : α} (apart : id ≠ user) :
      fields user = update fields id new user := (update_of_ne apart.symm new fields).symm
  cases change with
  | addUser id provider => exact { same with account := elsewhere outside }
  | setRoot id isRoot => exact { same with account := elsewhere outside }
  | assignRole id role => exact { same with roles := elsewhere outside }
  | addTeamMember team id => exact { same with teams := elsewhere outside }
  | setVerification id verifiedAt => exact { same with verification := elsewhere outside }
  | assignTeamRole team role =>
    refine { same with teamRoles := fun own member => (update_of_ne ?_ _ _).symm }
    exact fun here => outside (here ▸ member)
  | addRole role permissions =>
    refine { same with permissions := fun own carried => (update_of_ne ?_ _ _).symm }
    exact fun here => outside (here ▸ carried)
  | addRolePermission role permission =>
    refine { same with permissions := fun own carried => (update_of_ne ?_ _ _).symm }
    exact fun here => outside (here ▸ carried)
  | requireVerification required => exact outside.elim
  | addTeam | grant | revoke | upsertPermissions => exact same

end SameFor

end Directory

namespace Store

/-- The user is loaded alike in both states, and every check that names no resource comes out alike. -/
structure SameAnywhere [Store σ] (before after : σ) (user : UserId) : Prop where
  load : ∀ registry config,
    (Checker.on registry config before).loader.load user = (Checker.on registry config after).loader.load user
  explain : ∀ registry config permission,
    (Checker.on registry config before).explain user permission =
      (Checker.on registry config after).explain user permission

/-- So is the user on the resource, at any time. -/
structure SameOn [Store σ] (before after : σ) (user : UserId) (resourceType resourceId : String) : Prop
    extends SameAnywhere before after user where
  loadForResource : ∀ registry config now,
    (Checker.on registry config before).loader.loadForResource user resourceType resourceId now =
      (Checker.on registry config after).loader.loadForResource user resourceType resourceId now
  explainResource : ∀ registry config permission now,
    (Checker.on registry config before).explainResource user resourceType resourceId permission now =
      (Checker.on registry config after).explainResource user resourceType resourceId permission now

section

open DirectoryStore

variable [Store σ] [DirectoryStore σ] {before after store : σ} {user : UserId} {resourceType resourceId : String}
  {change : Write} {changes : List Write}

theorem agreeFor_of_sameFor (soundBefore : Sound before) (soundAfter : Sound after)
    (same : (directory before).SameFor user (directory after)) : (facts before).AgreeFor (facts after) user :=
  (follows before soundBefore).agreeFor (follows after soundAfter) same.standing_eq same.verification
    same.verificationRequired

theorem sameAnywhere_of_sameFor (soundBefore : Sound before) (soundAfter : Sound after)
    (same : (directory before).SameFor user (directory after)) : SameAnywhere before after user where
  load _ _ := load_congr (gives before) (gives after) (agreeFor_of_sameFor soundBefore soundAfter same)
  explain _ _ _ := explain_congr (gives before) (gives after) (agreeFor_of_sameFor soundBefore soundAfter same)

/-- What is asked for when a user's grants on a resource are loaded. -/
def ownQuery (store : σ) (user : UserId) (resourceType resourceId : String) (now : Timestamp) : GrantQuery :=
  { resourceType, resourceId, userId := user, teamIds := ((directory store).teams user).toList, now }

theorem concerns_ownQuery_iff {now : Timestamp} {key : GrantKey} :
    (ownQuery store user resourceType resourceId now).Concerns key ↔
      (directory store).Reaches user resourceType resourceId key := by
  simp only [GrantQuery.Concerns, Directory.Reaches, ownQuery, GrantQuery.covers_iff, ExtTreeSet.mem_toList]

/-- A later state in which a user has the same part in everything and the same grants on a resource. -/
structure Undisturbed (user : UserId) (resourceType resourceId : String) (before after : σ) : Prop where
  sound : Sound after
  same : (directory before).SameFor user (directory after)
  grants : ∀ now, (facts after).resourceGrants (ownQuery before user resourceType resourceId now) =
    (facts before).resourceGrants (ownQuery before user resourceType resourceId now)

theorem Undisturbed.sameOn (undisturbed : Undisturbed user resourceType resourceId before after)
    (sound : Sound before) : SameOn before after user resourceType resourceId := by
  have agree := agreeFor_of_sameFor sound undisturbed.sound undisturbed.same
  have sameGrants (now : Timestamp) : (facts before).SameGrants (facts after) user resourceType resourceId now := by
    intro principal present
    rw [(follows before sound).teamIds present]
    exact (undisturbed.grants now).symm
  exact
    { sameAnywhere_of_sameFor sound undisturbed.sound undisturbed.same with
      loadForResource := fun _ _ now => loadForResource_congr (gives before) (gives after) agree (sameGrants now)
      explainResource := fun _ _ _ now => explainResource_congr (gives before) (gives after) agree (sameGrants now) }

/-- One more write that does not concern the user disturbs nothing, whether it is taken or refused. -/
theorem Undisturbed.step (undisturbed : Undisturbed user resourceType resourceId before after)
    (outside : (directory before).Outside user resourceType resourceId change) :
    Undisturbed user resourceType resourceId before (Store.step after change) := by
  refine ⟨sound_step after change undisturbed.sound, ?_, fun now => ?_⟩
  · rcases directory_step after change with refused | taken
    · rw [refused]
      exact undisturbed.same
    · rw [taken]
      exact undisturbed.same.trans (.apply ((undisturbed.same.outside_iff change).mp outside))
  · rw [resourceGrants_step after change, undisturbed.grants]
    intro key placed concerned
    have reaches := concerns_ownQuery_iff.mp concerned
    cases change with
    | grant grant =>
      cases placed
      exact outside reaches
    | revoke key =>
      cases placed
      exact outside reaches
    | _ => cases placed

theorem undisturbed_after (sound : Sound store)
    (outside : ∀ change ∈ changes, (directory store).Outside user resourceType resourceId change) :
    Undisturbed user resourceType resourceId store (Store.after store changes) :=
  after_keeps (fun change member _ undisturbed => undisturbed.step (outside change member))
    ⟨sound, .refl user _, fun _ => rfl⟩

/-- Grants on resources are no part of the directory. -/
theorem sameAnywhere_after_grants (sound : Sound store)
    (onGrants : ∀ change ∈ changes, (Write.grantKey? change).isSome = true) :
    SameAnywhere store (Store.after store changes) user := by
  have unchanged : Sound (Store.after store changes) ∧ directory (Store.after store changes) = directory store := by
    refine after_keeps (motive := fun after => Sound after ∧ directory after = directory store)
      (fun change member after same => ⟨sound_step after change same.1, ?_⟩) ⟨sound, rfl⟩
    rcases directory_step after change with refused | taken
    · rw [refused, same.2]
    · have onGrant := onGrants change member
      rw [taken, ← same.2]
      cases change with
      | grant | revoke => rfl
      | _ => cases onGrant
  refine sameAnywhere_of_sameFor sound unchanged.1 ?_
  rw [unchanged.2]
  exact .refl user _

theorem unseen (store : σ) (sound : Sound store) (user : UserId) (resourceType resourceId : String)
    (changes : List Write) :
    ((∀ change ∈ changes, (directory store).Outside user resourceType resourceId change) →
      SameOn store (Store.after store changes) user resourceType resourceId ∧
      ∀ change, (directory (Store.after store changes)).Outside user resourceType resourceId change ↔
        (directory store).Outside user resourceType resourceId change) ∧
    ((∀ change ∈ changes, (Write.grantKey? change).isSome = true) →
      SameAnywhere store (Store.after store changes) user) := by
  refine ⟨fun outside => ?_, sameAnywhere_after_grants sound⟩
  have undisturbed := undisturbed_after sound outside
  exact ⟨undisturbed.sameOn sound, fun change => (undisturbed.same.outside_iff change).symm⟩

end

/-- Writes that are about others, taken or refused, leave all that a user is given on a resource as it was, and what
is about others stays about others. What is given anywhere no grant on any resource changes. Tables that have come
about in any way have their references in place (`Database.Reachable.referential`). -/
theorem noninterference (user : UserId) (resourceType resourceId : String) (changes : List Write) :
    (∀ store : MemoryStore,
      ((∀ change ∈ changes, store.directory.Outside user resourceType resourceId change) →
        SameOn store (after store changes) user resourceType resourceId ∧
        ∀ change, (after store changes).directory.Outside user resourceType resourceId change ↔
          store.directory.Outside user resourceType resourceId change) ∧
      ((∀ change ∈ changes, change.grantKey?.isSome = true) → SameAnywhere store (after store changes) user)) ∧
    (∀ tables : Database, tables.Referential →
      ((∀ change ∈ changes, tables.directory.Outside user resourceType resourceId change) →
        SameOn tables (after tables changes) user resourceType resourceId ∧
        ∀ change, (after tables changes).directory.Outside user resourceType resourceId change ↔
          tables.directory.Outside user resourceType resourceId change) ∧
      ((∀ change ∈ changes, change.grantKey?.isSome = true) → SameAnywhere tables (after tables changes) user)) :=
  ⟨fun store => unseen store trivial user resourceType resourceId changes,
    fun tables referential => unseen tables referential user resourceType resourceId changes⟩

/-- A reader who is in a team. -/
def staff : List Write :=
  [.addUser "ann" .oidc, .addUser "bob" .oidc, .addRole "viewer" ["read"], .addRole "editor" ["edit"],
    .assignRole "ann" "viewer", .addTeam "writers" "Writers", .addTeamMember "writers" "ann"]

/-- A team is given the reader's name and with it all that the reader lacks, and one write is refused. -/
def namesake : List Write :=
  [.setRoot "bob" true, .addTeam "ann" "Namesakes", .addTeamMember "ann" "bob", .assignTeamRole "ann" "editor",
    .addRolePermission "editor" "read", .assignRole "carl" "editor", .addTeam "writers" "Authors",
    .grant ⟨⟨"doc", "7", ⟨.team, "ann"⟩, "edit"⟩, none⟩, .grant ⟨⟨"doc", "8", ⟨.user, "ann"⟩, "edit"⟩, none⟩,
    .revoke ⟨"doc", "7", ⟨.user, "bob"⟩, "edit"⟩]

theorem namesake_outside (directory : Directory) (roles : (directory.roles "ann").toList = ["viewer"])
    (teams : (directory.teams "ann").toList = ["writers"]) (teamRoles : (directory.teamRoles "writers").toList = []) :
    ∀ change ∈ namesake, directory.Outside "ann" "doc" "7" change := by
  have inTeam : ∀ team, team ∈ directory.teams "ann" ↔ team = "writers" := by
    intro team
    rw [← ExtTreeSet.mem_toList, teams, List.mem_singleton]
  have carried : ¬ directory.Carries "ann" "editor" := by
    unfold Directory.Carries
    simp [inTeam, ← ExtTreeSet.mem_toList, roles, teamRoles]
  simp [namesake, Directory.Outside, Directory.Reaches, inTeam, carried]

theorem namesake_unseen :
    (∀ change ∈ namesake, (after (empty : MemoryStore) staff).directory.Outside "ann" "doc" "7" change) ∧
      SameOn (after (empty : MemoryStore) staff) (after (after empty staff) namesake) "ann" "doc" "7" ∧
      (after (empty : Database) staff).Referential ∧
      (∀ change ∈ namesake, (after (empty : Database) staff).directory.Outside "ann" "doc" "7" change) ∧
      SameOn (after (empty : Database) staff) (after (after empty staff) namesake) "ann" "doc" "7" ∧
      SameAnywhere (after (empty : Database) staff) (after (after empty staff) (namesake.drop 7)) "ann" := by
  have referential : (after (empty : Database) staff).Referential :=
    Database.Referential.blank.prepare.after staff
  have inMemory := namesake_outside (after (empty : MemoryStore) staff).directory
    (by decide) (by decide) (by decide)
  have inTables := namesake_outside (after (empty : Database) staff).directory
    (by decide) (by decide) (by decide)
  have unseen := noninterference "ann" "doc" "7" namesake
  have grants := (noninterference "ann" "doc" "7" (namesake.drop 7)).2 _ referential
  exact ⟨inMemory, ((unseen.1 _).1 inMemory).1, referential, inTables, ((unseen.2 _ referential).1 inTables).1,
    grants.2 (by decide)⟩

end Store

end AccessControl
