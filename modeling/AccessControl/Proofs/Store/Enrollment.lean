import AccessControl.Proofs.Access.Interchange
import AccessControl.Proofs.Directory.Tables

namespace AccessControl

open Std

/-- A row that refers from one record to another. -/
inductive Enrollment where
  | rolePermission (row : RolePermission)
  | userRole (row : UserRole)
  | teamMember (row : TeamMember)
  | teamRole (row : TeamRole)
deriving DecidableEq

namespace Enrollment

open Store.Roster

def write : Enrollment → Write
  | rolePermission row => .addRolePermission row.role row.permission
  | userRole row => .assignRole row.user row.role
  | teamMember row => .addTeamMember row.team row.user
  | teamRole row => .assignTeamRole row.team row.role

/-- The users, roles and teams that it names are there. A permission need not be in any catalog. -/
def Named [Store.Roster σ] (store : σ) : Enrollment → Prop
  | rolePermission row => HasRole store row.role
  | userRole row => HasUser store row.user ∧ HasRole store row.role
  | teamMember row => HasTeam store row.team ∧ HasUser store row.user
  | teamRole row => HasTeam store row.team ∧ HasRole store row.role

def rolePermission? : Enrollment → Option RolePermission
  | rolePermission row => some row
  | _ => none

def userRole? : Enrollment → Option UserRole
  | userRole row => some row
  | _ => none

def teamMember? : Enrollment → Option TeamMember
  | teamMember row => some row
  | _ => none

def teamRole? : Enrollment → Option TeamRole
  | teamRole row => some row
  | _ => none

/-- What a row of one kind adds to the record of a key. -/
def adds (row? : Enrollment → Option ρ) (owner value : ρ → String) (key : String) (enrollment : Enrollment) :
    Option String :=
  (row? enrollment).bind fun row => if key = owner row then some (value row) else none

/-- What these enrollments put into a set. -/
def fill [Ord α] [TransOrd α] (ids : ExtTreeSet α) (find : Enrollment → Option α) (enrollments : List Enrollment) :
    ExtTreeSet α :=
  ids.insertMany (enrollments.filterMap find)

section

variable [Ord α] [TransOrd α] {ids : ExtTreeSet α} {find : Enrollment → Option α} {enrollment : Enrollment}
  {left right : List Enrollment}

@[simp] theorem fill_nil : fill ids find [] = ids :=
  ExtTreeSet.insertMany_nil

theorem fill_cons : fill (fill ids find [enrollment]) find left = fill ids find (enrollment :: left) := by
  rw [fill, fill, fill, ← ExtTreeSet.insertMany_append, ← List.filterMap_append]
  rfl

theorem fill_singleton : fill ids find [enrollment] = (find enrollment).elim ids ids.insert := by
  cases found : find enrollment <;> simp [fill, found, ExtTreeSet.insertMany_list_singleton]

theorem fill_congr [LawfulEqOrd α] [DecidableEq α] (same : ∀ enrollment, enrollment ∈ left ↔ enrollment ∈ right) :
    fill ids find left = fill ids find right := by
  refine ExtTreeSet.ext_mem fun id => ?_
  simp only [fill, ExtTreeSet.mem_insertMany_list, List.contains_iff_mem, List.mem_filterMap, same]

end

end Enrollment

structure Role.InOrder (roles : List Role) : Prop where
  ids : Ascending (roles.map Role.id)
  permissions : ∀ role ∈ roles, Ascending role.permissions

/-- Roles, their permissions and teams are in the order of their ids, and none is there twice. -/
structure Principal.InOrder (principal : Principal) : Prop where
  roles : Role.InOrder principal.roles
  teams : Ascending (principal.teams.map Team.id)
  teamRoles : ∀ team ∈ principal.teams, Role.InOrder team.roles

theorem Role.InOrder.filterMap {find : RoleId → Option Role} (own : ∀ id role, find id = some role → role.id = id)
    (permissions : ∀ id role, find id = some role → Ascending role.permissions) (ids : ExtTreeSet RoleId) :
    Role.InOrder (ids.toList.filterMap find) where
  ids := ascending_filterMap own ids
  permissions role listed := by
    obtain ⟨id, _, found⟩ := List.mem_filterMap.mp listed
    exact permissions id role found

/-- A store in which enrollments come to the same all at once as one after the other. -/
class Enrolling (σ : Type) [Store σ] [Store.Roster σ] where
  enroll : σ → List Enrollment → σ
  enroll_nil : ∀ store : σ, enroll store [] = store
  enroll_cons : ∀ (store : σ) enrollment rest,
    enroll (enroll store [enrollment]) rest = enroll store (enrollment :: rest)
  enroll_congr : ∀ (store : σ) left right, (∀ enrollment, enrollment ∈ left ↔ enrollment ∈ right) →
    enroll store left = enroll store right
  named_enroll : ∀ (store : σ) enrollments (enrollment : Enrollment),
    enrollment.Named (enroll store enrollments) ↔ enrollment.Named store
  perform_write : ∀ (store : σ) (enrollment : Enrollment), enrollment.Named store →
    (Store.write enrollment.write).perform store = (.ok .done, enroll store [enrollment])
  inOrder : ∀ (store : σ) (user : UserId) (principal : Principal),
    Store.loadPrincipal store user = .ok (some principal) → principal.InOrder

namespace MemoryStore

open Enrollment

def enroll (store : MemoryStore) (enrollments : List Enrollment) : MemoryStore :=
  { store with
    users := store.users.map fun id user =>
      { user with roles := fill user.roles (adds userRole? UserRole.user UserRole.role id) enrollments }
    roles := store.roles.map fun id role =>
      { role with
        permissions :=
          fill role.permissions (adds rolePermission? RolePermission.role RolePermission.permission id) enrollments }
    teams := store.teams.map fun id team =>
      { team with
        members := fill team.members (adds teamMember? TeamMember.team TeamMember.user id) enrollments
        roles := fill team.roles (adds teamRole? TeamRole.team TeamRole.role id) enrollments } }

/-- An enrollment writes over the record that refers, and leaves all others. -/
theorem perform_enrollment (store : MemoryStore) (enrollment : Enrollment) (named : enrollment.Named store) :
    (write enrollment.write).perform store = (.ok .done, store.enroll [enrollment]) := by
  cases enrollment with
  | rolePermission row =>
    have found := ExtTreeMap.getElem?_eq_some_getElem named
    rw [Enrollment.write, perform_addRolePermission, found]
    -- The rows of other kinds add nothing, so the maps of other records are as before.
    simp only [enroll, fill_singleton, adds, rolePermission?, userRole?, teamMember?, teamRole?, Option.bind_some,
      Option.bind_none, Option.elim_none, ExtTreeMap.map_id]
    rw [map_eq_insert found]
    · rw [if_pos rfl, Option.elim_some]
    · intro id role other
      rw [if_neg other, Option.elim_none]
  | userRole row =>
    have known := ExtTreeMap.getElem?_eq_some_getElem named.2
    have found := ExtTreeMap.getElem?_eq_some_getElem named.1
    rw [Enrollment.write, perform_assignRole, known, found]
    simp only [enroll, fill_singleton, adds, rolePermission?, userRole?, teamMember?, teamRole?, Option.bind_some,
      Option.bind_none, Option.elim_none, ExtTreeMap.map_id]
    rw [map_eq_insert found]
    · rw [if_pos rfl, Option.elim_some]
    · intro id user other
      rw [if_neg other, Option.elim_none]
  | teamMember row =>
    have known := ExtTreeMap.getElem?_eq_some_getElem named.2
    have found := ExtTreeMap.getElem?_eq_some_getElem named.1
    rw [Enrollment.write, perform_addTeamMember, known, found]
    simp only [enroll, fill_singleton, adds, rolePermission?, userRole?, teamMember?, teamRole?, Option.bind_some,
      Option.bind_none, Option.elim_none, ExtTreeMap.map_id]
    rw [map_eq_insert found]
    · rw [if_pos rfl, Option.elim_some]
    · intro id user other
      rw [if_neg other, Option.elim_none]
  | teamRole row =>
    have known := ExtTreeMap.getElem?_eq_some_getElem named.2
    have found := ExtTreeMap.getElem?_eq_some_getElem named.1
    rw [Enrollment.write, perform_assignTeamRole, known, found]
    simp only [enroll, fill_singleton, adds, rolePermission?, userRole?, teamMember?, teamRole?, Option.bind_some,
      Option.bind_none, Option.elim_none, ExtTreeMap.map_id]
    rw [map_eq_insert found]
    · rw [if_pos rfl, Option.elim_some]
    · intro id user other
      rw [if_neg other, Option.elim_none]

theorem rolesOf_inOrder (store : MemoryStore) (ids : ExtTreeSet RoleId) : Role.InOrder (store.rolesOf ids) := by
  refine .filterMap (fun id role found => ?_) (fun id role found => ?_) ids
  · obtain ⟨_, _, rfl⟩ := Option.map_eq_some_iff.mp found
    rfl
  · obtain ⟨_, _, rfl⟩ := Option.map_eq_some_iff.mp found
    exact ExtTreeSet.ordered_toList

theorem loadPrincipal_inOrder (store : MemoryStore) (user : UserId) (principal : Principal)
    (loaded : Store.loadPrincipal store user = .ok (some principal)) : principal.InOrder := by
  obtain ⟨account, _, rfl⟩ := Option.map_eq_some_iff.mp (Except.ok.inj loaded)
  refine { roles := store.rolesOf_inOrder _, teams := ?_, teamRoles := fun team member => ?_ }
  · rw [teamsOf, List.map_map]
    exact ascending_keys store.teams _
  · obtain ⟨_, _, rfl⟩ := List.mem_map.mp member
    exact store.rolesOf_inOrder _

instance : Enrolling MemoryStore where
  enroll := enroll
  enroll_nil store := by simp [enroll, ExtTreeMap.map_id]
  enroll_cons store enrollment rest := by simp only [enroll, ExtTreeMap.map_map, fill_cons]
  enroll_congr store left right same := by simp only [enroll, fill_congr same]
  named_enroll store enrollments enrollment := by
    cases enrollment <;> simp [Named, Store.Roster.HasUser, Store.Roster.HasRole, Store.Roster.HasTeam, enroll]
  perform_write := perform_enrollment
  inOrder := loadPrincipal_inOrder

end MemoryStore

namespace Database

open Enrollment

def enroll (tables : Database) (enrollments : List Enrollment) : Database :=
  { tables with
    rolePermissions := fill tables.rolePermissions rolePermission? enrollments
    userRoles := fill tables.userRoles userRole? enrollments
    teamMembers := fill tables.teamMembers teamMember? enrollments
    teamRoles := fill tables.teamRoles teamRole? enrollments }

/-- An enrollment adds its row to the table of its kind. -/
theorem perform_enrollment (tables : Database) (enrollment : Enrollment) (named : enrollment.Named tables) :
    (write enrollment.write).perform tables = (.ok .done, tables.enroll [enrollment]) := by
  cases enrollment with
  | rolePermission row =>
    rw [Enrollment.write, perform_addRolePermission, enroll]
    simp only [fill_singleton]
    exact if_pos named
  | userRole row =>
    rw [Enrollment.write, perform_assignRole, enroll]
    simp only [fill_singleton]
    exact if_pos named
  | teamMember row =>
    rw [Enrollment.write, perform_addTeamMember, enroll]
    simp only [fill_singleton]
    exact if_pos named
  | teamRole row =>
    rw [Enrollment.write, perform_assignTeamRole, enroll]
    simp only [fill_singleton]
    exact if_pos named

theorem filterMap_role?_inOrder (tables : Database) (ids : ExtTreeSet RoleId) :
    Role.InOrder (ids.toList.filterMap tables.role?) := by
  refine .filterMap (fun _ _ => id_of_role?) (fun id role found => ?_) ids
  obtain ⟨_, _, rfl⟩ := Option.map_eq_some_iff.mp found
  exact second_column_ascending fun _ => rfl

theorem loadPrincipal_inOrder (tables : Database) (user : UserId) (principal : Principal)
    (loaded : Store.loadPrincipal tables user = .ok (some principal)) : principal.InOrder := by
  obtain ⟨account, _, rfl⟩ := Option.map_eq_some_iff.mp (Except.ok.inj loaded)
  refine { roles := ?_, teams := ?_, teamRoles := ?_ }
  · rw [rolesOfUser_eq]
    exact tables.filterMap_role?_inOrder _
  · rw [teamsOfUser_eq]
    exact ascending_filterMap (fun _ _ => id_of_team?) _
  · intro team member
    rw [teamsOfUser_eq] at member
    obtain ⟨id, _, found⟩ := List.mem_filterMap.mp member
    obtain ⟨_, _, rfl⟩ := Option.map_eq_some_iff.mp found
    rw [rolesOfTeam_eq]
    exact tables.filterMap_role?_inOrder _

instance : Enrolling Database where
  enroll := enroll
  enroll_nil tables := by simp [enroll]
  enroll_cons tables enrollment rest := by simp only [enroll, fill_cons]
  enroll_congr tables left right same := by simp only [enroll, fill_congr same]
  named_enroll tables enrollments enrollment := by cases enrollment <;> rfl
  perform_write := perform_enrollment
  inOrder := loadPrincipal_inOrder

end Database

section

open Store Enrolling

variable [Store σ] [Roster σ] [Enrolling σ] {store : σ} {enrollments left right : List Enrollment}

/-- Enrollments of what is there are all taken, and come to what they are all at once. -/
theorem after_enrollments (named : ∀ enrollment ∈ enrollments, enrollment.Named store) :
    receipts store (enrollments.map Enrollment.write) = enrollments.map (fun _ => some .done) ∧
      after store (enrollments.map Enrollment.write) = enroll store enrollments := by
  induction enrollments generalizing store with
  | nil => exact ⟨rfl, (enroll_nil store).symm⟩
  | cons first rest ih =>
    obtain ⟨now, later⟩ := List.forall_mem_cons.mp named
    have taken := perform_write store first now
    have stepped : step store first.write = enroll store [first] := congrArg Prod.snd taken
    have answered : receipt store first.write = some .done := congrArg (fun attempt => attempt.1.toOption) taken
    obtain ⟨receipts, entered⟩ := @ih (enroll store [first]) fun enrollment member =>
      (named_enroll store [first] enrollment).mpr (later enrollment member)
    rw [List.map_cons, List.map_cons, Store.receipts, stepped, answered, receipts]
    refine ⟨rfl, ?_⟩
    rw [← enroll_cons, ← entered, ← stepped]
    rfl

/-- Both lists are taken entirely, and afterwards the same principals are loaded, in order, and checks are the same. -/
structure Interchangeable (store : σ) (left right : List Enrollment) : Prop where
  leftTaken : receipts store (left.map Enrollment.write) = left.map fun _ => some .done
  rightTaken : receipts store (right.map Enrollment.write) = right.map fun _ => some .done
  principals : ∀ user, loadPrincipal (after store (left.map Enrollment.write)) user =
    loadPrincipal (after store (right.map Enrollment.write)) user
  inOrder : ∀ user principal,
    loadPrincipal (after store (left.map Enrollment.write)) user = .ok (some principal) → principal.InOrder
  checker : ∀ registry config, Checker.on registry config (after store (left.map Enrollment.write)) =
    Checker.on registry config (after store (right.map Enrollment.write))

theorem interchangeable (same : ∀ enrollment, enrollment ∈ left ↔ enrollment ∈ right)
    (named : ∀ enrollment ∈ left, enrollment.Named store) : Interchangeable store left right := by
  have others : ∀ enrollment ∈ right, enrollment.Named store :=
    fun enrollment member => named enrollment ((same enrollment).mpr member)
  obtain ⟨leftTaken, leftAfter⟩ := after_enrollments named
  obtain ⟨rightTaken, rightAfter⟩ := after_enrollments others
  have whole : after store (left.map Enrollment.write) = after store (right.map Enrollment.write) := by
    rw [leftAfter, rightAfter, enroll_congr store left right same]
  exact
    { leftTaken, rightTaken
      principals := fun user => congrArg (loadPrincipal · user) whole
      inOrder := Enrolling.inOrder _
      checker := fun registry config => congrArg (Checker.on registry config) whole }

end

open Store

/-- Enrollments of what is there can be written in any order and any number of times, in memory and in tables. -/
theorem enrollments_interchangeable {left right : List Enrollment}
    (same : ∀ enrollment, enrollment ∈ left ↔ enrollment ∈ right) :
    (∀ store : MemoryStore, (∀ enrollment ∈ left, enrollment.Named store) → Interchangeable store left right) ∧
      ∀ tables : Database, (∀ enrollment ∈ left, enrollment.Named tables) → Interchangeable tables left right :=
  ⟨fun _ => interchangeable same, fun _ => interchangeable same⟩

/-- A user, a role and a team that have nothing to do with each other yet. -/
def newcomers : List Write :=
  [.addUser "ann" .oidc, .addRole "editor" [], .addTeam "writers" "Writers"]

def staffing : List Enrollment :=
  [.userRole ⟨"ann", "editor"⟩, .teamMember ⟨"writers", "ann"⟩, .teamRole ⟨"writers", "editor"⟩,
    .rolePermission ⟨"editor", "print"⟩, .rolePermission ⟨"editor", "edit"⟩]

/-- The same in another order, and some of it twice. -/
def restaffing : List Enrollment :=
  [.rolePermission ⟨"editor", "edit"⟩, .teamRole ⟨"writers", "editor"⟩, .rolePermission ⟨"editor", "print"⟩,
    .teamMember ⟨"writers", "ann"⟩, .userRole ⟨"ann", "editor"⟩, .rolePermission ⟨"editor", "edit"⟩,
    .teamMember ⟨"writers", "ann"⟩]

theorem staffing_interchangeable :
    let memory := after (empty : MemoryStore) newcomers
    let tables := after (empty : Database) newcomers
    (∀ enrollment, enrollment ∈ staffing ↔ enrollment ∈ restaffing) ∧
      (∀ enrollment ∈ staffing, enrollment.Named memory) ∧ (∀ enrollment ∈ staffing, enrollment.Named tables) ∧
      loadPrincipal (after tables (staffing.map Enrollment.write)) "ann" =
        .ok (some ⟨"ann", false, .oidc, [⟨"editor", "editor", ["edit", "print"]⟩],
          [⟨"writers", "Writers", [⟨"editor", "editor", ["edit", "print"]⟩]⟩]⟩) ∧
      Interchangeable memory staffing restaffing ∧ Interchangeable tables staffing restaffing := by
  intro memory tables
  have same : ∀ enrollment, enrollment ∈ staffing ↔ enrollment ∈ restaffing := by
    intro enrollment
    exact ⟨fun member => (by decide : ∀ other ∈ staffing, other ∈ restaffing) enrollment member,
      fun member => (by decide : ∀ other ∈ restaffing, other ∈ staffing) enrollment member⟩
  have inMemory : ∀ enrollment ∈ staffing, enrollment.Named memory := by
    have ann : "ann" ∈ memory.users := by decide +kernel
    have editor : "editor" ∈ memory.roles := by decide +kernel
    have writers : "writers" ∈ memory.teams := by decide +kernel
    simp [staffing, Enrollment.Named, Roster.HasUser, Roster.HasRole, Roster.HasTeam, ann, editor, writers]
  have inTables : ∀ enrollment ∈ staffing, enrollment.Named tables := by
    have ann : "ann" ∈ tables.users := by decide +kernel
    have editor : "editor" ∈ tables.roles := by decide +kernel
    have writers : "writers" ∈ tables.teams := by decide +kernel
    simp [staffing, Enrollment.Named, Roster.HasUser, Roster.HasRole, Roster.HasTeam, ann, editor, writers]
  obtain ⟨forMemory, forTables⟩ := enrollments_interchangeable same
  exact ⟨same, inMemory, inTables, by decide +kernel, forMemory memory inMemory, forTables tables inTables⟩

end AccessControl
