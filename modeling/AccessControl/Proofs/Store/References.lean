import AccessControl.Proofs.Store.Runs
import AccessControl.Store.Database.Maintenance

namespace AccessControl

open Std Transition

namespace Database

/-- Every row that refers to others has them all among the rows. -/
structure Referential (tables : Database) : Prop where
  userRoles : ∀ row ∈ tables.userRoles, row.user ∈ tables.users ∧ row.role ∈ tables.roles
  rolePermissions : ∀ row ∈ tables.rolePermissions, row.role ∈ tables.roles
  teamMembers : ∀ row ∈ tables.teamMembers, row.team ∈ tables.teams ∧ row.user ∈ tables.users
  teamRoles : ∀ row ∈ tables.teamRoles, row.team ∈ tables.teams ∧ row.role ∈ tables.roles
  emailVerifications : ∀ user ∈ tables.emailVerifications, user ∈ tables.users

namespace Referential

variable {tables : Database} {user : UserId} {role : RoleId} {team : TeamId}

theorem blank : Referential .blank where
  userRoles := by simp [Database.blank]
  rolePermissions := by simp [Database.blank]
  teamMembers := by simp [Database.blank]
  teamRoles := by simp [Database.blank]
  emailVerifications := by simp [Database.blank]

theorem prepare (referential : tables.Referential) : tables.prepare.Referential := by
  unfold Database.prepare
  split
  · exact { blank with }
  · exact referential

/-- More users, roles and teams leave every reference what it was. -/
theorem widen (referential : tables.Referential) {users : ExtTreeMap UserId UserRow} {roles : ExtTreeMap RoleId String}
    {teams : ExtTreeMap TeamId String} (moreUsers : ∀ user ∈ tables.users, user ∈ users)
    (moreRoles : ∀ role ∈ tables.roles, role ∈ roles) (moreTeams : ∀ team ∈ tables.teams, team ∈ teams) :
    Referential { tables with users, roles, teams } where
  userRoles row stored := (referential.userRoles row stored).imp (moreUsers _) (moreRoles _)
  rolePermissions row stored := moreRoles _ (referential.rolePermissions row stored)
  teamMembers row stored := (referential.teamMembers row stored).imp (moreTeams _) (moreUsers _)
  teamRoles row stored := (referential.teamRoles row stored).imp (moreTeams _) (moreRoles _)
  emailVerifications user stored := moreUsers _ (referential.emailVerifications user stored)

theorem putUser (referential : tables.Referential) (row : UserRow) :
    Referential { tables with users := tables.users.insert user row } :=
  referential.widen (by simp +contextual) (by simp) (by simp)

theorem putTeam (referential : tables.Referential) (name : String) :
    Referential { tables with teams := tables.teams.insert team name } :=
  referential.widen (by simp) (by simp) (by simp +contextual)

theorem forall_mem_insert [Row ρ] {rows : ExtTreeSet ρ} {new : ρ} {holds : ρ → Prop} (first : holds new)
    (others : ∀ row ∈ rows, holds row) : ∀ row ∈ rows.insert new, holds row := by
  intro row stored
  rcases ExtTreeSet.mem_insert.mp stored with same | earlier
  · rwa [← Std.compare_eq_iff_eq.mp same]
  · exact others row earlier

theorem addRole (referential : tables.Referential) (permissions : List PermissionId) :
    Referential { tables with
      roles := tables.roles.insertIfNew role role
      rolePermissions := replacePermissions tables.rolePermissions role permissions } := by
  have widened : Referential { tables with roles := tables.roles.insertIfNew role role } :=
    referential.widen (by simp) (by simp +contextual) (by simp)
  refine { widened with rolePermissions := fun row stored => ?_ }
  rw [mem_replacePermissions] at stored
  by_cases same : row.role = role
  · simp [same]
  · rw [if_neg same] at stored
    exact ExtTreeMap.mem_insertIfNew.mpr (.inr (referential.rolePermissions row stored))

/-- A write that would leave a reference without its row is refused. -/
theorem step (referential : tables.Referential) (change : Write) : (Store.step tables change).Referential := by
  change ((write change).perform tables).2.Referential
  cases change with
  | addUser user provider => exact referential.putUser _
  | setRoot user isRoot =>
    rw [perform_setRoot]
    cases tables.users[user]? with
    | none => exact referential
    | some row => exact referential.putUser _
  | addRole role permissions =>
    rw [perform_addRole]
    exact referential.addRole permissions
  | addRolePermission role permission =>
    rw [perform_addRolePermission]
    refine guarded tables (fun present => ?_) referential
    exact { referential with rolePermissions := forall_mem_insert present referential.rolePermissions }
  | assignRole user role =>
    rw [perform_assignRole]
    refine guarded tables (fun present => ?_) referential
    exact { referential with userRoles := forall_mem_insert present referential.userRoles }
  | addTeam team name => exact referential.putTeam name
  | addTeamMember team user =>
    rw [perform_addTeamMember]
    refine guarded tables (fun present => ?_) referential
    exact { referential with teamMembers := forall_mem_insert present referential.teamMembers }
  | assignTeamRole team role =>
    rw [perform_assignTeamRole]
    refine guarded tables (fun present => ?_) referential
    exact { referential with teamRoles := forall_mem_insert present referential.teamRoles }
  | grant grant => exact { referential with }
  | revoke key => exact { referential with }
  | setVerification user verifiedAt =>
    rw [perform_setVerification]
    refine guarded tables (fun present => { referential with emailVerifications := fun other stored => ?_ }) referential
    rcases ExtTreeMap.mem_insert.mp stored with same | earlier
    · rwa [← Std.compare_eq_iff_eq.mp same]
    · exact referential.emailVerifications other earlier
  | requireVerification required => exact { referential with }
  | upsertPermissions permissions =>
    rw [perform_upsertPermissions]
    exact { referential with }

theorem after (referential : tables.Referential) (changes : List Write) : (Store.after tables changes).Referential := by
  induction changes generalizing tables with
  | nil => exact referential
  | cons change rest ih => exact ih (referential.step change)

theorem mem_erase_of_ne {map : ExtTreeMap String α} {key id : String} (present : key ∈ map) (other : key ≠ id) :
    key ∈ map.erase id := by
  simpa [Ne.symm other] using present

theorem deleteUser (referential : tables.Referential) (id : UserId) :
    ((Database.deleteUser id).perform tables).2.Referential := by
  refine { referential with userRoles := ?_, teamMembers := ?_, emailVerifications := ?_ }
  · intro row stored
    obtain ⟨stored, other⟩ := ExtTreeSet.mem_filter.mp stored
    exact (referential.userRoles row stored).imp_left fun present => mem_erase_of_ne present (by simpa using other)
  · intro row stored
    obtain ⟨stored, other⟩ := ExtTreeSet.mem_filter.mp stored
    exact (referential.teamMembers row stored).imp_right fun present => mem_erase_of_ne present (by simpa using other)
  · intro user stored
    obtain ⟨other, stored⟩ := ExtTreeMap.mem_erase.mp stored
    exact mem_erase_of_ne (referential.emailVerifications user stored) fun same => other (by simp [same])

theorem deleteRole (referential : tables.Referential) (id : RoleId) :
    ((Database.deleteRole id).perform tables).2.Referential := by
  refine { referential with userRoles := ?_, rolePermissions := ?_, teamRoles := ?_ }
  · intro row stored
    obtain ⟨stored, other⟩ := ExtTreeSet.mem_filter.mp stored
    exact (referential.userRoles row stored).imp_right fun present => mem_erase_of_ne present (by simpa using other)
  · intro row stored
    obtain ⟨stored, other⟩ := ExtTreeSet.mem_filter.mp stored
    exact mem_erase_of_ne (referential.rolePermissions row stored) (by simpa using other)
  · intro row stored
    obtain ⟨stored, other⟩ := ExtTreeSet.mem_filter.mp stored
    exact (referential.teamRoles row stored).imp_right fun present => mem_erase_of_ne present (by simpa using other)

theorem deleteTeam (referential : tables.Referential) (id : TeamId) :
    ((Database.deleteTeam id).perform tables).2.Referential := by
  refine { referential with teamMembers := ?_, teamRoles := ?_ }
  · intro row stored
    obtain ⟨stored, other⟩ := ExtTreeSet.mem_filter.mp stored
    exact (referential.teamMembers row stored).imp_left fun present => mem_erase_of_ne present (by simpa using other)
  · intro row stored
    obtain ⟨stored, other⟩ := ExtTreeSet.mem_filter.mp stored
    exact (referential.teamRoles row stored).imp_left fun present => mem_erase_of_ne present (by simpa using other)

theorem overwriteUser (referential : tables.Referential) (id : UserId) (rootFlag : Int) (provider : String) :
    ((Database.overwriteUser id rootFlag provider).perform tables).2.Referential :=
  referential.widen (fun _ => ExtTreeMap.mem_modify.mpr) (fun _ present => present) (fun _ present => present)

theorem renameRole (referential : tables.Referential) (id : RoleId) (name : String) :
    ((Database.renameRole id name).perform tables).2.Referential :=
  referential.widen (fun _ present => present) (fun _ => ExtTreeMap.mem_modify.mpr) (fun _ present => present)

end Referential

/-- The states that a relational store can come to from a new one, others at work on the same database included. -/
inductive Reachable : Database → Prop where
  | empty : Reachable .empty
  | write {tables : Database} (reachable : Reachable tables) (change : Write) : Reachable (Store.step tables change)
  | reopen {tables : Database} (reachable : Reachable tables) : Reachable tables.prepare
  | deleteUser {tables : Database} (reachable : Reachable tables) (id : UserId) :
    Reachable ((deleteUser id).perform tables).2
  | deleteRole {tables : Database} (reachable : Reachable tables) (id : RoleId) :
    Reachable ((deleteRole id).perform tables).2
  | deleteTeam {tables : Database} (reachable : Reachable tables) (id : TeamId) :
    Reachable ((deleteTeam id).perform tables).2
  | overwriteCatalog {tables : Database} (reachable : Reachable tables) (id : PermissionId) (column : CatalogColumn)
    (text : String) : Reachable ((overwriteCatalog id column text).perform tables).2
  | overwriteUser {tables : Database} (reachable : Reachable tables) (id : UserId) (rootFlag : Int) (provider : String) :
    Reachable ((overwriteUser id rootFlag provider).perform tables).2
  | renameRole {tables : Database} (reachable : Reachable tables) (id : RoleId) (name : String) :
    Reachable ((renameRole id name).perform tables).2
  | overwriteVerificationSetting {tables : Database} (reachable : Reachable tables) (value : String) :
    Reachable ((overwriteVerificationSetting value).perform tables).2

theorem Reachable.referential {tables : Database} (reachable : tables.Reachable) : tables.Referential := by
  induction reachable with
  | empty => exact Referential.blank.prepare
  | write _ change ih => exact ih.step change
  | reopen _ ih => exact ih.prepare
  | deleteUser _ id ih => exact ih.deleteUser id
  | deleteRole _ id ih => exact ih.deleteRole id
  | deleteTeam _ id ih => exact ih.deleteTeam id
  | overwriteCatalog _ _ _ _ ih => exact { ih with }
  | overwriteUser _ id rootFlag provider ih => exact ih.overwriteUser id rootFlag provider
  | renameRole _ id name ih => exact ih.renameRole id name
  | overwriteVerificationSetting _ _ ih => exact { ih with }

end Database

end AccessControl
