import AccessControl.Proofs.Store.Cascades

namespace AccessControl.Database

open Std

variable {tables : Database}

/-- No two rows of a table have one key. -/
structure DistinctKeys (tables : Database) : Prop where
  versions : tables.versions.toList.Nodup
  users : (tables.users.toList.map Prod.fst).Nodup
  roles : (tables.roles.toList.map Prod.fst).Nodup
  rolePermissions : tables.rolePermissions.toList.Nodup
  userRoles : tables.userRoles.toList.Nodup
  teams : (tables.teams.toList.map Prod.fst).Nodup
  teamMembers : tables.teamMembers.toList.Nodup
  teamRoles : tables.teamRoles.toList.Nodup
  resourcePermissions : (tables.resourcePermissions.toList.map Prod.fst).Nodup
  emailVerifications : (tables.emailVerifications.toList.map Prod.fst).Nodup
  settings : (tables.settings.toList.map Prod.fst).Nodup
  permissions : (tables.permissions.toList.map Prod.fst).Nodup

theorem distinctKeys (tables : Database) : tables.DistinctKeys where
  versions := nodup_rows _
  users := nodup_keys _
  roles := nodup_keys _
  rolePermissions := nodup_rows _
  userRoles := nodup_rows _
  teams := nodup_keys _
  teamMembers := nodup_rows _
  teamRoles := nodup_rows _
  resourcePermissions := nodup_keys _
  emailVerifications := nodup_keys _
  settings := nodup_keys _
  permissions := nodup_keys _

theorem Reachable.versions_eq (reachable : tables.Reachable) : tables.versions = {1} := by
  induction reachable with
  | empty => rfl
  | @write tables _ change ih => exact (tables.step_leaves change).versions.trans ih
  | @reopen tables _ ih =>
    unfold prepare
    split
    · rfl
    · exact ih
  | deleteUser _ _ ih => exact ih
  | deleteRole _ _ ih => exact ih
  | deleteTeam _ _ ih => exact ih
  | overwriteCatalog _ _ _ _ ih => exact ih
  | overwriteUser _ _ _ _ ih => exact ih
  | renameRole _ _ _ ih => exact ih
  | overwriteVerificationSetting _ _ ih => exact ih

/-- The schema is applied once; opening the database again changes nothing. -/
theorem Reachable.prepare_eq (reachable : tables.Reachable) : tables.prepare = tables := by
  rw [prepare, if_neg]
  rw [reachable.versions_eq]
  decide

theorem Reachable.after (reachable : tables.Reachable) (changes : List Write) :
    (Store.after tables changes).Reachable :=
  Store.after_keeps (fun change _ _ reachable => reachable.write change) reachable

def renewUser (tables : Database) (user : UserId) (provider : AuthProvider) : Database :=
  Store.step (tables.withoutUser user) (.addUser user provider)

def renewRole (tables : Database) (role : RoleId) (permissions : List PermissionId) : Database :=
  Store.step (tables.withoutRole role) (.addRole role permissions)

def renewTeam (tables : Database) (team : TeamId) (name : String) : Database :=
  Store.step (tables.withoutTeam team) (.addTeam team name)

/-- The user is deleted, and nobody else changes; the user who gets the id next is a new one. -/
structure ForgetsUser (tables : Database) (user : UserId) (provider : AuthProvider) : Prop where
  deleted : (tables.withoutUser user).loadPrincipal user = none
  othersDeleted : ∀ other, other ≠ user → (tables.withoutUser user).loadPrincipal other = tables.loadPrincipal other
  renewed : (tables.renewUser user provider).loadPrincipal user = some ⟨user, false, .ofName provider.name, [], []⟩
  verification : (tables.renewUser user provider).verification user = none
  othersRenewed : ∀ other, other ≠ user →
    (tables.renewUser user provider).loadPrincipal other = tables.loadPrincipal other

/-- The role is struck from every principal, and the role that gets the id next is assigned to nobody. -/
structure ForgetsRole (tables : Database) (role : RoleId) (permissions : List PermissionId) : Prop where
  struck : ∀ user,
    (tables.withoutRole role).loadPrincipal user = (tables.loadPrincipal user).map (Principal.withoutRole role)
  users : ∀ row ∈ (tables.renewRole role permissions).userRoles, row.role ≠ role
  teams : ∀ row ∈ (tables.renewRole role permissions).teamRoles, row.role ≠ role
  renewed : ∀ user,
    (tables.renewRole role permissions).loadPrincipal user = (tables.withoutRole role).loadPrincipal user

/-- The team is struck from every principal, and the team that gets the id next has no members and no roles. -/
structure ForgetsTeam (tables : Database) (team : TeamId) (name : String) : Prop where
  struck : ∀ user,
    (tables.withoutTeam team).loadPrincipal user = (tables.loadPrincipal user).map (Principal.withoutTeam team)
  members : ∀ row ∈ (tables.renewTeam team name).teamMembers, row.team ≠ team
  roles : ∀ row ∈ (tables.renewTeam team name).teamRoles, row.team ≠ team
  renewed : ∀ user, (tables.renewTeam team name).loadPrincipal user = (tables.withoutTeam team).loadPrincipal user

namespace Referential

theorem forgetsUser (referential : tables.Referential) (user : UserId) (provider : AuthProvider) :
    tables.ForgetsUser user provider := by
  have absent : user ∉ (tables.withoutUser user).users := not_mem_erase tables.users user
  have left := referential.deleteUser user
  exact
    { deleted := congrArg (Option.map _) (ExtTreeMap.getElem?_eq_none absent)
      othersDeleted := fun _ => loadPrincipal_withoutUser
      renewed := left.loadPrincipal_addUser absent provider
      verification := left.verification_addUser absent provider
      othersRenewed := fun _ different =>
        (loadPrincipal_addUser_of_ne different provider).trans (loadPrincipal_withoutUser different) }

theorem forgetsRole (referential : tables.Referential) (role : RoleId) (permissions : List PermissionId) :
    tables.ForgetsRole role permissions := by
  have absent : role ∉ (tables.withoutRole role).roles := not_mem_erase tables.roles role
  have left := referential.deleteRole role
  refine { struck := fun _ => loadPrincipal_withoutRole role, users := ?_, teams := ?_, renewed := ?_ }
  · rw [renewRole, step_addRole]
    exact fun row stored same => absent (same ▸ (left.userRoles row stored).2)
  · rw [renewRole, step_addRole]
    exact fun row stored same => absent (same ▸ (left.teamRoles row stored).2)
  · exact fun _ => left.loadPrincipal_addRole absent permissions

theorem forgetsTeam (referential : tables.Referential) (team : TeamId) (name : String) :
    tables.ForgetsTeam team name := by
  have absent : team ∉ (tables.withoutTeam team).teams := not_mem_erase tables.teams team
  have left := referential.deleteTeam team
  exact
    { struck := fun _ => loadPrincipal_withoutTeam team
      members := fun row stored same => absent (same ▸ (left.teamMembers row stored).1)
      roles := fun row stored same => absent (same ▸ (left.teamRoles row stored).1)
      renewed := fun _ => left.loadPrincipal_addTeam absent name }

end Referential

/-- Whatever is written, deleted and opened again, references find their rows, keys are distinct, opening once more
changes nothing, and what is deleted is gone for good, also when its id is used again. -/
theorem deletions_exact (reachable : tables.Reachable) :
    tables.Referential ∧ tables.DistinctKeys ∧ tables.prepare = tables ∧
      (∀ user provider, tables.ForgetsUser user provider) ∧
      (∀ role permissions, tables.ForgetsRole role permissions) ∧
      ∀ team name, tables.ForgetsTeam team name := by
  have referential := reachable.referential
  exact ⟨referential, distinctKeys tables, reachable.prepare_eq, referential.forgetsUser, referential.forgetsRole,
    referential.forgetsTeam⟩

/-- Two users who share a role and a team; one of them is root. -/
def office : Database :=
  Store.after .empty
    [.addUser "ann" .oidc, .setRoot "ann" true, .setVerification "ann" none, .addUser "bob" .oidc,
      .addRole "editor" ["edit"], .assignRole "ann" "editor", .assignRole "bob" "editor", .addTeam "writers" "Writers",
      .addTeamMember "writers" "ann", .addTeamMember "writers" "bob", .assignTeamRole "writers" "editor"]

theorem office_forgets :
    office.Reachable ∧
      office.loadPrincipal "ann" =
        some ⟨"ann", true, .oidc, [⟨"editor", "editor", ["edit"]⟩],
          [⟨"writers", "Writers", [⟨"editor", "editor", ["edit"]⟩]⟩]⟩ ∧
      (office.renewUser "ann" .oidc).loadPrincipal "ann" = some ⟨"ann", false, .oidc, [], []⟩ ∧
      (office.renewRole "editor" ["print"]).loadPrincipal "bob" =
        some ⟨"bob", false, .oidc, [], [⟨"writers", "Writers", []⟩]⟩ ∧
      (office.renewTeam "writers" "Authors").loadPrincipal "bob" =
        some ⟨"bob", false, .oidc, [⟨"editor", "editor", ["edit"]⟩], []⟩ := by
  have reachable : office.Reachable := Reachable.empty.after _
  obtain ⟨_, _, _, users, roles, teams⟩ := deletions_exact reachable
  have bob : office.loadPrincipal "bob" =
      some ⟨"bob", false, .oidc, [⟨"editor", "editor", ["edit"]⟩],
        [⟨"writers", "Writers", [⟨"editor", "editor", ["edit"]⟩]⟩]⟩ := by
    decide +kernel
  refine ⟨reachable, by decide +kernel, (users "ann" .oidc).renewed, ?_, ?_⟩
  · rw [(roles "editor" ["print"]).renewed, (roles "editor" ["print"]).struck, bob]
    rfl
  · rw [(teams "writers" "Authors").renewed, (teams "writers" "Authors").struck, bob]
    rfl

end AccessControl.Database
