import Mathlib.Data.List.Basic
import Mathlib.Logic.Function.Basic
import Std.Data.ExtTreeMap
import AccessControl.Store.Basic

/-!
Who is who. Of all that a store keeps about users, roles and teams a directory has just what a user's grants are made
of; both stores are read through their directory, and a write does to the directory what the write alone says.
-/

namespace AccessControl

open Std Function

structure Account where
  isRoot : Bool
  provider : AuthProvider

/-- Names are left out, and a role that does not exist has no permissions. -/
structure Directory where
  account : UserId → Option Account
  roles : UserId → ExtTreeSet RoleId
  teams : UserId → ExtTreeSet TeamId
  teamRoles : TeamId → ExtTreeSet RoleId
  permissions : RoleId → PermissionSet
  verification : UserId → Option Verification
  verificationRequired : Bool

/-- A user as far as grants depend on the user, in the order in which they do. -/
structure Standing where
  userId : UserId
  isRoot : Bool
  provider : AuthProvider
  teamIds : List TeamId
  rolePermissions : List PermissionId

def Principal.standing (principal : Principal) : Standing where
  userId := principal.userId
  isRoot := principal.isRoot
  provider := principal.provider
  teamIds := principal.teamIds
  rolePermissions := principal.rolePermissions

namespace Directory

variable {directory : Directory} {user : UserId} {principal : Principal}

/-- Nobody is known, and no verification is required. -/
def empty : Directory :=
  { account := fun _ => none, roles := fun _ => ∅, teams := fun _ => ∅, teamRoles := fun _ => ∅,
    permissions := fun _ => ∅, verification := fun _ => none, verificationRequired := false }

/-- What roles give, one after the other. -/
def given (directory : Directory) (roles : ExtTreeSet RoleId) : List PermissionId :=
  roles.toList.flatMap fun role => (directory.permissions role).toList

def standing (directory : Directory) (user : UserId) : Option Standing :=
  (directory.account user).map fun account =>
    { userId := user
      isRoot := account.isRoot
      provider := account.provider
      teamIds := (directory.teams user).toList
      rolePermissions := directory.given (directory.roles user) ++
        (directory.teams user).toList.flatMap fun team => directory.given (directory.teamRoles team) }

/-- The role is one of the user's or one of a team that the user is in. -/
def Carries (directory : Directory) (user : UserId) (role : RoleId) : Prop :=
  role ∈ directory.roles user ∨ ∃ team ∈ directory.teams user, role ∈ directory.teamRoles team

theorem mem_given {roles : ExtTreeSet RoleId} {id : PermissionId} :
    id ∈ directory.given roles ↔ ∃ role ∈ roles, id ∈ directory.permissions role := by
  simp only [given, List.mem_flatMap, ExtTreeSet.mem_toList]

/-- What roles that are looked up by their ids give, if each gives what the directory says. -/
theorem flatMap_filterMap {find : RoleId → Option Role}
    (told : ∀ role, ((find role).map Role.permissions).getD [] = (directory.permissions role).toList)
    (ids : ExtTreeSet RoleId) : (ids.toList.filterMap find).flatMap Role.permissions = directory.given ids := by
  unfold given
  induction ids.toList with
  | nil => rfl
  | cons id rest ih =>
    have first := told id
    rw [List.filterMap_cons, List.flatMap_cons, ← ih, ← first]
    cases find id <;> rfl

/-- What a user holds by roles is what the roles give that the user carries. -/
theorem mem_rolePermissions {standing : Standing} {id : PermissionId} (found : directory.standing user = some standing) :
    id ∈ standing.rolePermissions ↔ ∃ role, directory.Carries user role ∧ id ∈ directory.permissions role := by
  obtain ⟨account, _, rfl⟩ := Option.map_eq_some_iff.mp found
  simp only [List.mem_append, List.mem_flatMap, ExtTreeSet.mem_toList, mem_given, Carries]
  constructor
  · rintro (⟨role, own, granted⟩ | ⟨team, member, role, shared, granted⟩)
    · exact ⟨role, .inl own, granted⟩
    · exact ⟨role, .inr ⟨team, member, shared⟩, granted⟩
  · rintro ⟨role, own | ⟨team, member, shared⟩, granted⟩
    · exact .inl ⟨role, own, granted⟩
    · exact .inr ⟨team, member, role, shared, granted⟩

/-- What a write does when it is taken; `keep` is what a store makes of the provider of a user. -/
def apply (keep : AuthProvider → AuthProvider) (directory : Directory) : Write → Directory
  | .addUser user provider => { directory with
      account := update directory.account user
        (some ⟨(directory.account user).any Account.isRoot, keep provider⟩) }
  | .setRoot user isRoot => { directory with
      account := update directory.account user ((directory.account user).map fun account => { account with isRoot }) }
  | .addRole role permissions => { directory with
      permissions := update directory.permissions role (.ofList permissions) }
  | .addRolePermission role permission => { directory with
      permissions := update directory.permissions role ((directory.permissions role).insert permission) }
  | .assignRole user role => { directory with
      roles := update directory.roles user ((directory.roles user).insert role) }
  | .addTeamMember team user => { directory with
      teams := update directory.teams user ((directory.teams user).insert team) }
  | .assignTeamRole team role => { directory with
      teamRoles := update directory.teamRoles team ((directory.teamRoles team).insert role) }
  | .setVerification user verifiedAt => { directory with
      verification := update directory.verification user (some ⟨user, verifiedAt⟩) }
  | .requireVerification required => { directory with verificationRequired := required }
  | .addTeam _ _ | .grant _ | .revoke _ | .upsertPermissions _ => directory

/-- Members who join a team one after the other are all in it then, and nothing else has changed. -/
theorem foldl_addTeamMember (keep : AuthProvider → AuthProvider) (directory : Directory) (team : TeamId)
    (members : List UserId) :
    (members.map (Write.addTeamMember team)).foldl (apply keep) directory =
      { directory with
        teams := fun user =>
          if user ∈ members then (directory.teams user).insert team else directory.teams user } := by
  induction members generalizing directory with
  | nil => simp
  | cons first rest ih =>
    rw [List.map_cons, List.foldl_cons, ih]
    simp only [apply, Directory.mk.injEq, true_and, and_true]
    refine funext fun user => ExtTreeSet.ext_mem fun other => ?_
    by_cases same : user = first
    · subst same
      -- A member who is listed twice is added twice, the second time to no effect.
      by_cases again : user ∈ rest <;> simp [again]
    · simp [same]

/-- A principal with the account, the teams and what the roles give in the directory has the standing there. -/
theorem standing_eq (account : directory.account user = some ⟨principal.isRoot, principal.provider⟩)
    (userId : principal.userId = user) (teamIds : principal.teamIds = (directory.teams user).toList)
    (roles : principal.roles.flatMap Role.permissions = directory.given (directory.roles user))
    (teams : ∀ team ∈ principal.teams,
      team.roles.flatMap Role.permissions = directory.given (directory.teamRoles team.id)) :
    directory.standing user = some principal.standing := by
  have byTeam : (principal.teams.flatMap Team.roles).flatMap Role.permissions =
      principal.teamIds.flatMap fun team => directory.given (directory.teamRoles team) := by
    rw [List.flatMap_assoc, Principal.teamIds, List.flatMap_map]
    exact List.flatMap_congr teams
  rw [standing, account, Option.map_some, ← roles, ← teamIds, ← byTeam, ← List.flatMap_append, userId.symm]
  rfl

end Directory

theorem mem_update_insert {sets : String → ExtTreeSet String} {key new id value : String} :
    value ∈ update sets key ((sets key).insert new) id ↔ value ∈ sets id ∨ id = key ∧ value = new := by
  by_cases same : id = key
  · simp [same, or_comm, eq_comm (a := new)]
  · simp [same]

/-- What is told of the records of a map is told anew where a record is written, and else as before. -/
theorem tell_insert {map : ExtTreeMap String α} {key : String} {new : α} (tell : Option α → β) :
    (fun id => tell (map.insert key new)[id]?) = update (fun id => tell map[id]?) key (tell (some new)) := by
  funext id
  rw [update_apply, ExtTreeMap.getElem?_insert]
  by_cases same : id = key
  · simp [same]
  · simp [same, Ne.symm same]

end AccessControl
