import AccessControl.Proofs.Directory.Basic
import AccessControl.Proofs.Store.References
import AccessControl.Proofs.Store.Rows

namespace AccessControl

open Std Function

def UserRow.account (row : UserRow) : Account :=
  ⟨row.isRoot, .ofName row.provider⟩

section

variable [Row ρ] {rows : ExtTreeSet ρ} {owner value : ρ → String} {fixed : String}

/-- The values in the rows of each owner. -/
def owned (rows : ExtTreeSet ρ) (owner value : ρ → String) (fixed : String) : ExtTreeSet String :=
  .ofList ((rows.toList.filter fun row => owner row = fixed).map value)

theorem mem_owned {id : String} :
    id ∈ owned rows owner value fixed ↔ ∃ row ∈ rows, owner row = fixed ∧ value row = id := by
  simp only [owned, ExtTreeSet.mem_ofList, List.contains_iff_mem, mem_column, decide_eq_true_eq]

theorem owned_insert (new : ρ) :
    owned (rows.insert new) owner value =
      update (owned rows owner value) (owner new) ((owned rows owner value (owner new)).insert (value new)) := by
  funext fixed
  refine ExtTreeSet.ext_mem fun id => ?_
  simp only [mem_owned, ExtTreeSet.mem_insert, Std.compare_eq_iff_eq, or_and_right, exists_or, exists_eq_left']
  by_cases same : fixed = owner new
  · simp [same, mem_owned]
  · simp [same, Ne.symm same, mem_owned]

theorem owned_filter_owner {gone : String} (other : fixed ≠ gone) :
    owned (rows.filter fun row => owner row ≠ gone) owner value fixed = owned rows owner value fixed := by
  refine ExtTreeSet.ext_mem fun id => ?_
  simp only [mem_owned, ExtTreeSet.mem_filter, ExtTreeSet.get_eq, decide_eq_true_eq]
  refine exists_congr fun row => and_congr_left fun ⟨owner, _⟩ => ?_
  rw [owner]
  exact exists_prop.trans (and_iff_left other)

theorem owned_filter_value {gone : String} :
    owned (rows.filter fun row => value row ≠ gone) owner value fixed =
      (owned rows owner value fixed).filter fun id => id ≠ gone := by
  refine ExtTreeSet.ext_mem fun id => ?_
  simp only [mem_owned, ExtTreeSet.mem_filter, ExtTreeSet.get_eq, decide_eq_true_eq, exists_prop]
  constructor
  · rintro ⟨row, ⟨stored, other⟩, owner, rfl⟩
    exact ⟨⟨row, stored, owner, rfl⟩, other⟩
  · rintro ⟨⟨row, stored, owner, rfl⟩, other⟩
    exact ⟨row, ⟨stored, other⟩, owner, rfl⟩

theorem toList_owned
    (ascending : Ascending ((rows.toList.filter fun row => owner row = fixed).map value)) :
    (owned rows owner value fixed).toList = (rows.toList.filter fun row => owner row = fixed).map value :=
  eq_of_ascending ExtTreeSet.ordered_toList ascending (by simp [owned])

end

namespace Database

variable {tables : Database} {user : UserId} {role : RoleId} {team : TeamId}

def directory (tables : Database) : Directory where
  account user := tables.users[user]?.map UserRow.account
  roles := owned tables.userRoles UserRole.user UserRole.role
  teams := owned tables.teamMembers TeamMember.user TeamMember.team
  teamRoles := owned tables.teamRoles TeamRole.team TeamRole.role
  permissions := owned tables.rolePermissions RolePermission.role RolePermission.permission
  verification := tables.verification
  verificationRequired := tables.verificationRequired

theorem directory_empty : (Store.empty : Database).directory = .empty := by
  have owned_empty {ρ : Type} [Row ρ] (owner value : ρ → String) : owned ∅ owner value = fun _ => ∅ :=
    funext fun fixed => ExtTreeSet.ext_mem fun id => by simp [mem_owned]
  have unverified : (Store.empty : Database).verification = fun _ => none :=
    funext fun user => by simp [verification, Store.empty, empty, prepare, blank]
  rw [directory, unverified]
  simp [owned_empty, Store.empty, empty, prepare, blank, verificationRequired, Directory.empty]

theorem Referential.userRole_known (referential : tables.Referential) (own : role ∈ tables.directory.roles user) :
    user ∈ tables.users ∧ role ∈ tables.roles := by
  obtain ⟨row, stored, rfl, rfl⟩ := mem_owned.mp own
  exact referential.userRoles row stored

theorem Referential.teamMember_known (referential : tables.Referential) (member : team ∈ tables.directory.teams user) :
    team ∈ tables.teams ∧ user ∈ tables.users := by
  obtain ⟨row, stored, rfl, rfl⟩ := mem_owned.mp member
  exact referential.teamMembers row stored

theorem Referential.teamRole_known (referential : tables.Referential) (shared : role ∈ tables.directory.teamRoles team) :
    team ∈ tables.teams ∧ role ∈ tables.roles := by
  obtain ⟨row, stored, rfl, rfl⟩ := mem_owned.mp shared
  exact referential.teamRoles row stored

theorem owned_replacePermissions (rows : ExtTreeSet RolePermission) (role : RoleId) (permissions : List PermissionId) :
    owned (replacePermissions rows role permissions) RolePermission.role RolePermission.permission =
      update (owned rows RolePermission.role RolePermission.permission) role (.ofList permissions) := by
  funext fixed
  refine ExtTreeSet.ext_mem fun id => ?_
  simp only [mem_owned, update_apply, mem_replacePermissions]
  by_cases same : fixed = role
  · subst same
    rw [if_pos rfl, ExtTreeSet.mem_ofList, List.contains_iff_mem]
    constructor
    · rintro ⟨row, stored, rfl, rfl⟩
      rwa [if_pos rfl] at stored
    · exact fun listed => ⟨⟨fixed, id⟩, by simpa using listed, rfl, rfl⟩
  · rw [if_neg same, mem_owned]
    refine exists_congr fun row => and_congr_left fun ⟨owner, _⟩ => ?_
    rw [if_neg (owner ▸ same)]

theorem directory_putUser (row : UserRow) :
    directory { tables with users := tables.users.insert user row } =
      { tables.directory with account := update tables.directory.account user (some row.account) } := by
  unfold directory
  congr 1
  exact tell_insert fun row => row.map UserRow.account

theorem directory_setVerification (verifiedAt : Option Timestamp) :
    directory { tables with emailVerifications := tables.emailVerifications.insert user verifiedAt } =
      { tables.directory with
        verification := update tables.directory.verification user (some ⟨user, verifiedAt⟩) } := by
  unfold directory
  congr 1
  funext other
  rw [verification, update_apply, ExtTreeMap.getElem?_insert]
  by_cases same : other = user
  · simp [same]
  · simp [same, Ne.symm same, verification]

theorem directory_requireVerification (required : Bool) :
    directory { tables with
        settings := tables.settings.insert verificationSetting (if required then "true" else "false") } =
      { tables.directory with verificationRequired := required } := by
  unfold directory
  congr 1
  cases required <;> simp [verificationRequired]

theorem kept_or_changed {present : Prop} [Decidable present] {receipt : Receipt} {changed : Database}
    {directory : Directory} (same : changed.directory = directory) :
    let attempt : Except StoreError Receipt × Database :=
      if present then (.ok receipt, changed) else (.error orphaned, tables)
    attempt.1.toOption = none ∧ attempt.2 = tables ∨ attempt.2.directory = directory := by
  dsimp only
  split
  · exact .inr same
  · exact .inl ⟨rfl, rfl⟩

/-- A write is refused and changes nothing, or does to the directory what it says; of a provider only the name is
written. -/
theorem directory_outcome (tables : Database) (change : Write) :
    Store.receipt tables change = none ∧ Store.step tables change = tables ∨
      (Store.step tables change).directory = tables.directory.apply (fun provider => .ofName provider.name) change := by
  change ((write change).perform tables).1.toOption = none ∧ ((write change).perform tables).2 = tables ∨
    (((write change).perform tables).2).directory = _
  cases change with
  | addUser user provider =>
    rw [perform_addUser]
    refine .inr ((directory_putUser _).trans ?_)
    cases found : tables.users[user]? with
    | none => simp [Directory.apply, directory, found, UserRow.account]
    | some row => simp [Directory.apply, directory, found, UserRow.account]
  | setRoot user isRoot =>
    rw [perform_setRoot]
    cases found : tables.users[user]? with
    | none => exact .inl ⟨rfl, rfl⟩
    | some row =>
      refine .inr ((directory_putUser _).trans ?_)
      simp [Directory.apply, directory, found, UserRow.account]
  | addRole role permissions =>
    rw [perform_addRole]
    refine .inr ?_
    exact congrArg (fun permissions => { tables.directory with permissions }) (owned_replacePermissions _ _ _)
  | addRolePermission role permission =>
    rw [perform_addRolePermission]
    exact kept_or_changed (congrArg (fun permissions => { tables.directory with permissions }) (owned_insert _))
  | assignRole user role =>
    rw [perform_assignRole]
    exact kept_or_changed (congrArg (fun roles => { tables.directory with roles }) (owned_insert _))
  | addTeam team name => exact .inr rfl
  | addTeamMember team user =>
    rw [perform_addTeamMember]
    exact kept_or_changed (congrArg (fun teams => { tables.directory with teams }) (owned_insert _))
  | assignTeamRole team role =>
    rw [perform_assignTeamRole]
    exact kept_or_changed (congrArg (fun teamRoles => { tables.directory with teamRoles }) (owned_insert _))
  | grant grant => exact .inr rfl
  | revoke key => exact .inr rfl
  | setVerification user verifiedAt =>
    rw [perform_setVerification]
    exact kept_or_changed (directory_setVerification verifiedAt)
  | requireVerification required => exact .inr (directory_requireVerification required)
  | upsertPermissions permissions =>
    rw [perform_upsertPermissions]
    exact .inr rfl

theorem step_addRole (tables : Database) (role : RoleId) (permissions : List PermissionId) :
    Store.step tables (.addRole role permissions) = { tables with
      roles := tables.roles.insertIfNew role role
      rolePermissions := replacePermissions tables.rolePermissions role permissions } :=
  congrArg Prod.snd (tables.perform_addRole permissions)

theorem directory_permissions_addRole (tables : Database) (role : RoleId) (permissions : List PermissionId) :
    (Store.step tables (.addRole role permissions)).directory.permissions =
      update tables.directory.permissions role (.ofList permissions) := by
  rw [step_addRole]
  exact owned_replacePermissions _ _ _

theorem directory_roles_addRole (tables : Database) (role : RoleId) (permissions : List PermissionId) :
    (Store.step tables (.addRole role permissions)).directory.roles = tables.directory.roles := by
  rw [step_addRole]
  rfl

theorem directory_teamRoles_addRole (tables : Database) (role : RoleId) (permissions : List PermissionId) :
    (Store.step tables (.addRole role permissions)).directory.teamRoles = tables.directory.teamRoles := by
  rw [step_addRole]
  rfl

/-- A role with all its permissions, if there is one. -/
def role? (tables : Database) (role : RoleId) : Option Role :=
  tables.roles[role]?.map fun name => ⟨role, name, tables.permissionsOf role⟩

theorem id_of_role? {found : Role} (here : tables.role? role = some found) : found.id = role := by
  obtain ⟨_, _, rfl⟩ := Option.map_eq_some_iff.mp here
  rfl

theorem collectRoles_joinRoles (tables : Database) (ids : ExtTreeSet RoleId) :
    collectRoles (tables.joinRoles ids.toList) = ids.toList.filterMap tables.role? := by
  have joined : tables.joinRoles ids.toList = (ids.toList.filterMap tables.role?).flatMap RoleRow.ofRole := by
    unfold joinRoles
    induction ids.toList with
    | nil => rfl
    | cons id rest ih =>
      rw [List.flatMap_cons, List.filterMap_cons, ih, role?]
      cases tables.roles[id]? <;> rfl
  rw [joined, collectRoles_flatMap (nodup_filterMap (fun _ _ => id_of_role?) ids)]

theorem toList_directory_permissions (tables : Database) (role : RoleId) :
    (tables.directory.permissions role).toList = tables.permissionsOf role :=
  toList_owned (second_column_ascending fun _ => rfl)

theorem rolesOfUser_eq (tables : Database) (user : UserId) :
    tables.rolesOfUser user = (tables.directory.roles user).toList.filterMap tables.role? := by
  have ids : (tables.directory.roles user).toList =
      (tables.userRoles.toList.filter fun row => row.user = user).map UserRole.role :=
    toList_owned (second_column_ascending fun _ => rfl)
  rw [rolesOfUser, ← ids, collectRoles_joinRoles]

theorem rolesOfTeam_eq (tables : Database) (team : TeamId) :
    tables.rolesOfTeam team = (tables.directory.teamRoles team).toList.filterMap tables.role? := by
  have ids : (tables.directory.teamRoles team).toList =
      (tables.teamRoles.toList.filter fun row => row.team = team).map TeamRole.role :=
    toList_owned (second_column_ascending fun _ => rfl)
  rw [rolesOfTeam, ← ids, collectRoles_joinRoles]

/-- A team with all its roles, if there is one. -/
def team? (tables : Database) (team : TeamId) : Option Team :=
  tables.teams[team]?.map fun name => ⟨team, name, tables.rolesOfTeam team⟩

theorem id_of_team? {found : Team} (here : tables.team? team = some found) : found.id = team := by
  obtain ⟨_, _, rfl⟩ := Option.map_eq_some_iff.mp here
  rfl

theorem teamsOfUser_eq (tables : Database) (user : UserId) :
    tables.teamsOfUser user = (tables.directory.teams user).toList.filterMap tables.team? := by
  have ids : (tables.directory.teams user).toList =
      (tables.teamMembers.toList.filter fun row => row.user = user).map TeamMember.team :=
    toList_owned (first_column_ascending fun _ => rfl)
  rw [ids, List.filterMap_map]
  rfl

theorem flatMap_role? (referential : tables.Referential) (ids : ExtTreeSet RoleId) :
    (ids.toList.filterMap tables.role?).flatMap Role.permissions = tables.directory.given ids := by
  refine Directory.flatMap_filterMap (fun role => ?_) ids
  rw [toList_directory_permissions, role?]
  cases found : tables.roles[role]? with
  | some name => rfl
  | none =>
    have absent : role ∉ tables.roles := by simpa using found
    have none : tables.permissionsOf role = [] := by
      rw [permissionsOf, List.map_eq_nil_iff, List.filter_eq_nil_iff]
      intro row stored same
      have owner : row.role = role := by simpa using same
      exact absent (owner ▸ referential.rolePermissions row (ExtTreeSet.mem_toList.mp stored))
    rw [none]
    rfl

theorem flatMap_rolesOfUser (referential : tables.Referential) (user : UserId) :
    (tables.rolesOfUser user).flatMap Role.permissions = tables.directory.given (tables.directory.roles user) := by
  rw [rolesOfUser_eq, flatMap_role? referential]

theorem flatMap_rolesOfTeam (referential : tables.Referential) (team : TeamId) :
    (tables.rolesOfTeam team).flatMap Role.permissions = tables.directory.given (tables.directory.teamRoles team) := by
  rw [rolesOfTeam_eq, flatMap_role? referential]

theorem map_id_teamsOfUser (referential : tables.Referential) (user : UserId) :
    (tables.teamsOfUser user).map Team.id = (tables.directory.teams user).toList := by
  rw [teamsOfUser_eq, List.map_filterMap]
  refine (List.filterMap_congr fun team listed => ?_).trans List.filterMap_some
  have known : team ∈ tables.teams := (referential.teamMember_known (ExtTreeSet.mem_toList.mp listed)).1
  simp [team?, ExtTreeMap.getElem?_eq_some_getElem known]

/-- The principal that is loaded from the tables has the standing that the user has in the directory. -/
theorem standing_loadPrincipal (referential : tables.Referential) (user : UserId) :
    (tables.loadPrincipal user).map Principal.standing = tables.directory.standing user := by
  unfold loadPrincipal
  cases found : tables.users[user]? with
  | none => simp [Directory.standing, directory, found]
  | some row =>
    refine (Directory.standing_eq ?_ ?_ ?_ ?_ ?_).symm
    · simp [directory, found, UserRow.account]
    · rfl
    · exact map_id_teamsOfUser referential user
    · exact flatMap_rolesOfUser referential user
    · intro team member
      obtain ⟨row, _, made⟩ := List.mem_filterMap.mp member
      obtain ⟨name, _, rfl⟩ := Option.map_eq_some_iff.mp made
      exact flatMap_rolesOfTeam referential row.team

end Database

end AccessControl
