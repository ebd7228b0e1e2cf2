import AccessControl.Proofs.Store.Cascades

namespace AccessControl

open Std

def Role.permitting (role : RoleId) (permissions : List PermissionId) (shown : Role) : Role :=
  if shown.id = role then { shown with permissions } else shown

namespace Team

def renamed (team : TeamId) (name : String) (shown : Team) : Team :=
  if shown.id = team then { shown with name } else shown

def mapRoles (revise : Role → Role) (team : Team) : Team :=
  { team with roles := team.roles.map revise }

end Team

namespace Principal

def providedBy (user : UserId) (provider : AuthProvider) (principal : Principal) : Principal :=
  if principal.userId = user then { principal with provider } else principal

def mapTeams (revise : Team → Team) (principal : Principal) : Principal :=
  { principal with teams := principal.teams.map revise }

/-- The roles are the user's own and those of the teams. -/
def mapRoles (revise : Role → Role) (principal : Principal) : Principal :=
  { principal with
    roles := principal.roles.map revise
    teams := principal.teams.map (Team.mapRoles revise) }

end Principal

namespace Store

/-- The write is taken, and of all that can be read it revises the principals, each in the same way. -/
structure Revises [Store σ] (store : σ) (change : Write) (revise : Principal → Principal) : Prop where
  taken : receipt store change = some .done
  principals : ∀ user, loadPrincipal (step store change) user = (loadPrincipal store user).map (Option.map revise)
  resourceGrants : ∀ query, resourceGrants (step store change) query = resourceGrants store query
  verification : ∀ user, verification (step store change) user = verification store user
  verificationRequired : verificationRequired (step store change) = verificationRequired store
  listPermissions : listPermissions (step store change) = listPermissions store

theorem Revises.of_perform [Store σ] {store after : σ} {change : Write} {revise : Principal → Principal}
    (taken : (write change).perform store = (.ok .done, after))
    (principals : ∀ user, loadPrincipal after user = (loadPrincipal store user).map (Option.map revise))
    (grants : ∀ query, Store.resourceGrants after query = Store.resourceGrants store query)
    (verification : ∀ user, Store.verification after user = Store.verification store user)
    (required : Store.verificationRequired after = Store.verificationRequired store)
    (catalog : Store.listPermissions after = Store.listPermissions store) : Revises store change revise := by
  have stepped : step store change = after := congrArg Prod.snd taken
  have answered : receipt store change = some .done := congrArg (fun attempt => attempt.1.toOption) taken
  subst stepped
  exact ⟨answered, principals, grants, verification, required, catalog⟩

/-- Adding what is there revises one field of it; `keep` is what a store makes of the provider of a user. The
permissions of a role come to be those given, in ascending order and each once. -/
structure Readds [Store σ] [Roster σ] (keep : AuthProvider → AuthProvider) (store : σ) : Prop where
  user : ∀ user provider, Roster.HasUser store user →
    Revises store (.addUser user provider) (.providedBy user (keep provider))
  team : ∀ team name, Roster.HasTeam store team →
    Revises store (.addTeam team name) (.mapTeams (.renamed team name))
  role : ∀ role permissions, Roster.HasRole store role →
    ∃ listed, Ascending listed ∧ (∀ id, id ∈ listed ↔ id ∈ permissions) ∧
      Revises store (.addRole role permissions) (.mapRoles (.permitting role listed))

end Store

namespace MemoryStore

variable {store : MemoryStore} {user : UserId} {role : RoleId} {team : TeamId}

/-- Roles are named by their ids. -/
def RolesNamed (store : MemoryStore) : Prop :=
  ∀ (id : RoleId) (role : StoredRole), store.roles[id]? = some role → role.name = id

theorem RolesNamed.insert (named : store.RolesNamed) {new : StoredRole} (name : new.name = role) :
    RolesNamed { store with roles := store.roles.insert role new } := by
  intro id stored found
  rw [ExtTreeMap.getElem?_insert] at found
  split at found
  · next same => rw [← Option.some.inj found, name, Std.compare_eq_iff_eq.mp same]
  · exact named id stored found

/-- Only two writes touch roles, and one that touches a role names it by its id or leaves its name. -/
theorem RolesNamed.step (named : store.RolesNamed) (change : Write) : (Store.step store change).RolesNamed := by
  change ((write change).perform store).2.RolesNamed
  cases change with
  | addRole role permissions => exact named.insert rfl
  | addRolePermission role permission =>
    rw [perform_addRolePermission]
    cases found : store.roles[role]? with
    | none => exact named
    | some stored => exact named.insert (named role stored found)
  | addUser user provider => rw [perform_addUser]; exact named
  | setRoot user isRoot =>
    rw [perform_setRoot]
    cases store.users[user]? <;> exact named
  | assignRole user role =>
    rw [perform_assignRole]
    cases store.roles[role]? <;> cases store.users[user]? <;> exact named
  | addTeam team name => rw [perform_addTeam]; exact named
  | addTeamMember team user =>
    rw [perform_addTeamMember]
    cases store.users[user]? <;> cases store.teams[team]? <;> exact named
  | assignTeamRole team role =>
    rw [perform_assignTeamRole]
    cases store.roles[role]? <;> cases store.teams[team]? <;> exact named
  | grant grant => exact named
  | revoke key => exact named
  | setVerification user verifiedAt => exact named
  | requireVerification required => exact named
  | upsertPermissions permissions => rw [perform_upsertPermissions]; exact named

theorem rolesNamed_after (changes : List Write) : (Store.after (Store.empty : MemoryStore) changes).RolesNamed := by
  refine Store.after_keeps (fun change _ _ named => named.step change) fun id role found => ?_
  exact absurd found (by simp [Store.empty, empty])

theorem revises_addUser {stored : StoredUser} (found : store.users[user]? = some stored) (provider : AuthProvider) :
    Store.Revises store (.addUser user provider) (.providedBy user provider) := by
  have taken : (write (.addUser user provider)).perform store = (.ok .done, { store with
      users := store.users.map fun id stored => if id = user then { stored with provider } else stored }) := by
    rw [perform_addUser, found, ← insert_eq_map found]
    rfl
  refine .of_perform taken (fun other => congrArg Except.ok ?_) (fun _ => rfl) (fun _ => rfl) rfl rfl
  simp only [loadPrincipal, ExtTreeMap.getElem?_map, Option.map_map]
  congr 1
  funext account
  by_cases same : other = user
  · simp [Principal.providedBy, same, rolesOf, teamsOf]
  · simp [Principal.providedBy, same, rolesOf, teamsOf]

theorem revises_addTeam {stored : StoredTeam} (found : store.teams[team]? = some stored) (name : String) :
    Store.Revises store (.addTeam team name) (.mapTeams (.renamed team name)) := by
  have taken : (write (.addTeam team name)).perform store = (.ok .done, { store with
      teams := store.teams.map fun id stored => if id = team then { stored with name } else stored }) := by
    rw [perform_addTeam, found, ← insert_eq_map found]
    rfl
  refine .of_perform taken (fun user => congrArg Except.ok ?_) (fun _ => rfl) (fun _ => rfl) rfl rfl
  have teams : teamsOf { store with
      teams := store.teams.map fun id stored => if id = team then { stored with name } else stored } user =
      (store.teamsOf user).map (.renamed team name) := by
    rw [teamsOf, teamsOf, ExtTreeMap.toList_map, List.filter_map, List.map_map, List.map_map]
    have members : ∀ entry : TeamId × StoredTeam,
        (if entry.1 = team then { entry.2 with name } else entry.2).members = entry.2.members := by
      intro entry
      split <;> rfl
    refine congrArg₂ List.map ?_ ?_
    · funext entry
      by_cases same : entry.1 = team
      · simp [Team.renamed, same, rolesOf]
      · simp [Team.renamed, same, rolesOf]
    · refine List.filter_congr fun entry _ => ?_
      simp [members]
  rw [loadPrincipal, loadPrincipal, teams, Option.map_map]
  rfl

theorem revises_addRole (named : store.RolesNamed) (present : role ∈ store.roles) (permissions : List PermissionId) :
    Store.Revises store (.addRole role permissions)
      (.mapRoles (.permitting role (ExtTreeSet.ofList permissions).toList)) := by
  refine .of_perform (perform_addRole store permissions) (fun user => congrArg Except.ok ?_) (fun _ => rfl)
    (fun _ => rfl) rfl rfl
  have roles : ∀ ids, rolesOf { store with roles := store.roles.insert role ⟨role, .ofList permissions⟩ } ids =
      (store.rolesOf ids).map (.permitting role (ExtTreeSet.ofList permissions).toList) := by
    intro ids
    rw [rolesOf, rolesOf, List.map_filterMap]
    refine List.filterMap_congr fun id _ => ?_
    rw [ExtTreeMap.getElem?_insert]
    by_cases same : role = id
    · subst same
      -- The name is written anew as well, but it was the id before.
      have found := ExtTreeMap.getElem?_eq_some_getElem present
      rw [if_pos Std.compare_self, found]
      simp [Role.permitting, named role _ found]
    · cases found : store.roles[id]? <;> simp [Role.permitting, same, Ne.symm same]
  have teams : teamsOf { store with roles := store.roles.insert role ⟨role, .ofList permissions⟩ } user =
      (store.teamsOf user).map (.mapRoles (.permitting role (ExtTreeSet.ofList permissions).toList)) := by
    rw [teamsOf, teamsOf, List.map_map]
    simp only [roles]
    rfl
  rw [loadPrincipal, loadPrincipal, teams, Option.map_map]
  simp only [roles]
  rfl

end MemoryStore

namespace Database

variable {tables : Database} {user : UserId} {role : RoleId} {team : TeamId}

theorem revises_addUser {row : UserRow} (found : tables.users[user]? = some row) (provider : AuthProvider) :
    Store.Revises tables (.addUser user provider) (.providedBy user (.ofName provider.name)) := by
  have taken : (write (.addUser user provider)).perform tables = (.ok .done, { tables with
      users := tables.users.map fun id row => if id = user then { row with provider := provider.name } else row }) := by
    rw [perform_addUser, found, ← insert_eq_map found]
    rfl
  refine .of_perform taken (fun other => congrArg Except.ok ?_) (fun _ => rfl) (fun _ => rfl) rfl rfl
  simp only [loadPrincipal, ExtTreeMap.getElem?_map, Option.map_map]
  congr 1
  funext account
  by_cases same : other = user
  · simp only [Function.comp_apply, Principal.providedBy, if_pos same]
    rfl
  · simp only [Function.comp_apply, Principal.providedBy, if_neg same]
    rfl

theorem revises_addTeam {former : String} (found : tables.teams[team]? = some former) (name : String) :
    Store.Revises tables (.addTeam team name) (.mapTeams (.renamed team name)) := by
  refine .of_perform (perform_addTeam tables name) (fun user => congrArg Except.ok ?_) (fun _ => rfl) (fun _ => rfl)
    rfl rfl
  have shown : ∀ other, team? { tables with teams := tables.teams.insert team name } other =
      (tables.team? other).map (.renamed team name) := by
    intro other
    rw [team?, team?, ExtTreeMap.getElem?_insert]
    have roles : rolesOfTeam { tables with teams := tables.teams.insert team name } other =
        tables.rolesOfTeam other := rfl
    by_cases same : team = other
    · subst same
      simp [Team.renamed, found, roles]
    · cases tables.teams[other]? <;> simp [Team.renamed, same, Ne.symm same, roles]
  have teams : teamsOfUser { tables with teams := tables.teams.insert team name } user =
      (tables.teamsOfUser user).map (.renamed team name) := by
    rw [teamsOfUser_eq, teamsOfUser_eq, List.map_filterMap]
    exact List.filterMap_congr fun other _ => shown other
  rw [loadPrincipal, loadPrincipal, teams, Option.map_map]
  rfl

theorem role?_readd (present : role ∈ tables.roles) (permissions : List PermissionId) (other : RoleId) :
    (Store.step tables (.addRole role permissions)).role? other =
      (tables.role? other).map (.permitting role (ExtTreeSet.ofList permissions).toList) := by
  by_cases same : other = role
  · subst same
    have name : (Store.step tables (.addRole other permissions)).roles[other]? = tables.roles[other]? := by
      rw [step_addRole]
      exact ExtTreeMap.getElem?_insertIfNew.trans (if_neg fun new => new.2 present)
    have replaced : (Store.step tables (.addRole other permissions)).permissionsOf other =
        (ExtTreeSet.ofList permissions).toList := by
      rw [← toList_directory_permissions, directory_permissions_addRole, Function.update_self]
    rw [role?, role?, name, replaced, Option.map_map]
    simp [Function.comp_def, Role.permitting]
  · rw [role?_addRole permissions same]
    cases found : tables.role? other with
    | none => rfl
    | some shown => simp [Role.permitting, id_of_role? found, same]

theorem revises_addRole (present : role ∈ tables.roles) (permissions : List PermissionId) :
    Store.Revises tables (.addRole role permissions)
      (.mapRoles (.permitting role (ExtTreeSet.ofList permissions).toList)) := by
  have shown : ∀ ids : ExtTreeSet RoleId,
      ids.toList.filterMap (Store.step tables (.addRole role permissions)).role? =
        (ids.toList.filterMap tables.role?).map (.permitting role (ExtTreeSet.ofList permissions).toList) := by
    intro ids
    rw [List.map_filterMap]
    exact List.filterMap_congr fun id _ => role?_readd present permissions id
  have own : ∀ user, (Store.step tables (.addRole role permissions)).rolesOfUser user =
      (tables.rolesOfUser user).map (.permitting role (ExtTreeSet.ofList permissions).toList) := by
    intro user
    rw [rolesOfUser_eq, rolesOfUser_eq, directory_roles_addRole, shown]
  have shared : ∀ team, (Store.step tables (.addRole role permissions)).rolesOfTeam team =
      (tables.rolesOfTeam team).map (.permitting role (ExtTreeSet.ofList permissions).toList) := by
    intro team
    rw [rolesOfTeam_eq, rolesOfTeam_eq, directory_teamRoles_addRole, shown]
  have principals : ∀ user, (Store.step tables (.addRole role permissions)).loadPrincipal user =
      (tables.loadPrincipal user).map (.mapRoles (.permitting role (ExtTreeSet.ofList permissions).toList)) := by
    intro user
    have teams : (Store.step tables (.addRole role permissions)).teamsOfUser user =
        (tables.teamsOfUser user).map (.mapRoles (.permitting role (ExtTreeSet.ofList permissions).toList)) := by
      simp only [teamsOfUser, shared, List.map_filterMap, Option.map_map]
      rw [step_addRole]
      rfl
    rw [loadPrincipal, loadPrincipal, own, teams, Option.map_map, step_addRole]
    rfl
  rw [step_addRole] at principals
  exact .of_perform (perform_addRole tables permissions) (fun user => congrArg Except.ok (principals user))
    (fun _ => rfl) (fun _ => rfl) rfl rfl

end Database

namespace Store

/-- Whatever has been written to a store in memory and whatever is in the tables, to add a record again revises the one
field that is stated anew. -/
theorem readding_exact (changes : List Write) (tables : Database) :
    Readds id (after (empty : MemoryStore) changes) ∧ Readds (fun provider => .ofName provider.name) tables := by
  have listed : ∀ permissions : List PermissionId,
      Ascending (ExtTreeSet.ofList permissions).toList ∧
        ∀ id, id ∈ (ExtTreeSet.ofList permissions).toList ↔ id ∈ permissions :=
    fun permissions => ⟨ExtTreeSet.ordered_toList, fun id => by simp⟩
  constructor
  · have named := MemoryStore.rolesNamed_after changes
    exact
      { user := fun _ provider present =>
          MemoryStore.revises_addUser (ExtTreeMap.getElem?_eq_some_getElem present) provider
        team := fun _ name present => MemoryStore.revises_addTeam (ExtTreeMap.getElem?_eq_some_getElem present) name
        role := fun _ permissions present =>
          ⟨_, (listed permissions).1, (listed permissions).2, MemoryStore.revises_addRole named present permissions⟩ }
  · exact
      { user := fun _ provider present => Database.revises_addUser (ExtTreeMap.getElem?_eq_some_getElem present) provider
        team := fun _ name present => Database.revises_addTeam (ExtTreeMap.getElem?_eq_some_getElem present) name
        role := fun _ permissions present =>
          ⟨_, (listed permissions).1, (listed permissions).2, Database.revises_addRole present permissions⟩ }

/-- A root user with a role of her own and the same role in her team. -/
def deskWrites : List Write :=
  [.addUser "ann" .oidc, .setRoot "ann" true, .addRole "editor" ["edit"], .assignRole "ann" "editor",
    .addTeam "writers" "Writers", .addTeamMember "writers" "ann", .assignTeamRole "writers" "editor"]

def deskOf (provider : AuthProvider) (team : String) (permissions : List PermissionId) : Principal :=
  ⟨"ann", true, provider, [⟨"editor", "editor", permissions⟩], [⟨"writers", team, [⟨"editor", "editor", permissions⟩]⟩]⟩

theorem desk_readded :
    let memory := after (empty : MemoryStore) deskWrites
    let tables := after (empty : Database) deskWrites
    loadPrincipal (step memory (.addRole "editor" ["print", "edit", "print"])) "ann" =
        .ok (some (deskOf .oidc "Writers" ["edit", "print"])) ∧
      loadPrincipal (step tables (.addUser "ann" .ldap)) "ann" = .ok (some (deskOf .ldap "Writers" ["edit"])) ∧
      loadPrincipal (step tables (.addTeam "writers" "Authors")) "ann" =
        .ok (some (deskOf .oidc "Authors" ["edit"])) := by
  intro memory tables
  have inMemory : loadPrincipal memory "ann" = .ok (some (deskOf .oidc "Writers" ["edit"])) := by decide +kernel
  have inTables : loadPrincipal tables "ann" = .ok (some (deskOf .oidc "Writers" ["edit"])) := by decide +kernel
  obtain ⟨memoryReadds, tablesReadds⟩ := readding_exact deskWrites tables
  refine ⟨?_, ?_, ?_⟩
  · obtain ⟨listed, ascending, same, revises⟩ :=
      memoryReadds.role "editor" ["print", "edit", "print"] (show "editor" ∈ memory.roles by decide +kernel)
    have permissions : listed = ["edit", "print"] := by
      refine eq_of_ascending ascending (by decide) fun id => (same id).trans ?_
      grind
    rw [revises.principals, inMemory, permissions]
    rfl
  · rw [(tablesReadds.user "ann" .ldap (show "ann" ∈ tables.users by decide +kernel)).principals, inTables]
    rfl
  · rw [(tablesReadds.team "writers" "Authors" (show "writers" ∈ tables.teams by decide +kernel)).principals, inTables]
    rfl

end Store

end AccessControl
