import AccessControl.Fixture
import AccessControl.Proofs.Directory.History
import AccessControl.Proofs.Directory.Memory

namespace AccessControl.Fixture

open Std Function Transition

/-- A user or a team that is made, or made anew, with what it is to be permitted. -/
inductive Call where
  | user (user : UserId) (permissions : List PermissionId)
  | team (team : TeamId) (permissions : List PermissionId) (members : List UserId)
deriving DecidableEq

namespace Call

def action : Call → Action MemoryStore Unit
  | .user id permissions => userWithPermissions id permissions
  | .team id permissions members => teamWithPermissions id permissions members

/-- The id of the user or of the team. -/
def name : Call → String
  | .user id _ => id
  | .team id _ _ => id

def permissions : Call → List PermissionId
  | .user _ permissions => permissions
  | .team _ permissions _ => permissions

def writes : Call → List Write
  | .user id permissions => [.addUser id .oidc, .addRole (roleOf id) permissions, .assignRole id (roleOf id)]
  | .team id permissions members =>
    [.addTeam id id, .addRole (roleOf id) permissions, .assignTeamRole id (roleOf id)] ++
      members.map (.addTeamMember id)

end Call

/-- The action succeeds just if all of these writes are taken, and has their effect. -/
def CarriesOut (action : Action MemoryStore Unit) (writes : List Write) : Prop :=
  ∀ store after, action.perform store = (.ok (), after) ↔ Store.Takes store writes ∧ after = Store.after store writes

theorem carriesOut_pure : CarriesOut (pure ()) [] := by
  intro store after
  simp [perform_pure, Store.Takes, Store.receipts, Store.after, eq_comm]

theorem carriesOut_write {action : Action MemoryStore Unit} {change : Write}
    (same : MemoryStore.write change = action.answering .done) : CarriesOut action [change] := by
  intro store after
  have answered : (MemoryStore.write change).perform store =
      ((action.perform store).1.map fun _ => .done, (action.perform store).2) := by
    rw [same, Action.perform_answering]
  have taken : Store.Takes store [change] ↔ ((action.perform store).1.map fun _ => Receipt.done).toOption ≠ none := by
    rw [Store.takes_cons, Store.receipt]
    change ((MemoryStore.write change).perform store).1.toOption ≠ none ∧ _ ↔ _
    rw [answered]
    simp [Store.Takes, Store.receipts]
  have done : Store.after store [change] = (action.perform store).2 := congrArg Prod.snd answered
  rw [taken, done]
  obtain ⟨outcome, result⟩ := action.perform store
  cases outcome with
  | ok _ => simp [Except.map, Except.toOption, eq_comm]
  | error _ => simp [Except.map, Except.toOption]

theorem CarriesOut.bind {first second : Action MemoryStore Unit} {writes others : List Write}
    (carries : CarriesOut first writes) (continues : CarriesOut second others) :
    CarriesOut (do first; second) (writes ++ others) := by
  intro store after
  have split : Store.after store (writes ++ others) = Store.after (Store.after store writes) others :=
    List.foldl_append
  rw [perform_bind, Store.takes_append, split, and_assoc, ← continues (Store.after store writes) after]
  by_cases taken : Store.Takes store writes
  · rw [(carries store _).mpr ⟨taken, rfl⟩]
    exact (and_iff_right taken).symm
  · cases performed : first.perform store with
    | mk outcome between =>
      cases outcome with
      | ok _ => exact absurd ((carries store between).mp performed).1 taken
      | error _ => simp [taken]

theorem carriesOut_forM {items : List α} {action : α → Action MemoryStore Unit} {writes : α → List Write}
    (carries : ∀ item, CarriesOut (action item) (writes item)) :
    CarriesOut (items.forM action) (items.flatMap writes) := by
  induction items with
  | nil => exact carriesOut_pure
  | cons first rest ih => exact (carries first).bind ih

theorem Call.carriesOut (call : Call) : CarriesOut call.action call.writes := by
  cases call with
  | user id permissions =>
    exact (carriesOut_write rfl).bind ((carriesOut_write rfl).bind (carriesOut_write rfl))
  | team id permissions members =>
    have joined : CarriesOut (members.forM fun member => MemoryStore.addTeamMember id member)
        (members.flatMap fun member => [.addTeamMember id member]) := carriesOut_forM fun member => carriesOut_write rfl
    rw [← List.map_eq_flatMap] at joined
    exact (carriesOut_write rfl).bind ((carriesOut_write rfl).bind ((carriesOut_write rfl).bind joined))

variable {calls : List Call} {call : Call} {directory : Directory} {user : UserId} {team : TeamId} {name : String}

theorem roleOf_inj {other : String} : roleOf name = roleOf other ↔ name = other := by
  rw [roleOf, roleOf, ← String.toList_inj, String.toList_append, String.toList_append, List.append_left_inj,
    String.toList_inj]

def Created (calls : List Call) (user : UserId) : Prop :=
  ∃ permissions, .user user permissions ∈ calls

def Founded (calls : List Call) (team : TeamId) : Prop :=
  ∃ permissions members, .team team permissions members ∈ calls

/-- The team, if the user is listed as one of its members. -/
def Call.listing? (user : UserId) : Call → Option TeamId
  | .user _ _ => none
  | .team id _ members => if user ∈ members then some id else none

/-- The teams in which the user was listed. -/
def teamsOf (calls : List Call) (user : UserId) : ExtTreeSet TeamId :=
  .ofList (calls.filterMap (Call.listing? user))

/-- What is to be permitted, if it is under this name. -/
def Call.given? (name : String) (call : Call) : Option (List PermissionId) :=
  if call.name = name then some call.permissions else none

theorem mem_teamsOf :
    team ∈ teamsOf calls user ↔ ∃ permissions members, .team team permissions members ∈ calls ∧ user ∈ members := by
  simp only [teamsOf, ExtTreeSet.mem_ofList, List.contains_iff_mem, List.mem_filterMap]
  constructor
  · rintro ⟨call, made, listed⟩
    cases call with
    | user => cases listed
    | team id permissions members =>
      obtain ⟨member, rfl⟩ : user ∈ members ∧ id = team := by simpa [Call.listing?] using listed
      exact ⟨permissions, members, made, member⟩
  · rintro ⟨permissions, members, made, member⟩
    exact ⟨_, made, if_pos member⟩

theorem teamsOf_append :
    team ∈ teamsOf (calls ++ [call]) user ↔ team ∈ teamsOf calls user ∨ call.listing? user = some team := by
  simp only [teamsOf, List.filterMap_append, ExtTreeSet.mem_ofList, List.contains_iff_mem, List.mem_append]
  simp [List.mem_filterMap]

/-- After calls that made users and teams the directory is what they say. Users sign in elsewhere, users and teams have
the roles of their names and no others, and the role of a name permits what was given last under it. -/
structure Equips (calls : List Call) (directory : Directory) : Prop where
  account : ∀ user account, directory.account user = some account ↔ Created calls user ∧ account = ⟨false, .oidc⟩
  roles : ∀ user role, role ∈ directory.roles user ↔ Created calls user ∧ role = roleOf user
  teams : ∀ user, directory.teams user = teamsOf calls user
  teamRoles : ∀ team role, role ∈ directory.teamRoles team ↔ Founded calls team ∧ role = roleOf team
  permissions : ∀ name,
    directory.permissions (roleOf name) = .ofList ((lastTold (Call.given? name) calls).getD [])

theorem equips_empty : Equips [] .empty := by
  constructor <;> simp [Directory.empty, Created, Founded, teamsOf, lastTold]

theorem foldl_user (directory : Directory) (user : UserId) (permissions : List PermissionId) :
    (Call.user user permissions).writes.foldl (Directory.apply id) directory =
      { directory with
        account := update directory.account user (some ⟨(directory.account user).any Account.isRoot, .oidc⟩)
        roles := update directory.roles user ((directory.roles user).insert (roleOf user))
        permissions := update directory.permissions (roleOf user) (.ofList permissions) } :=
  rfl

theorem foldl_team (directory : Directory) (team : TeamId) (permissions : List PermissionId) (members : List UserId) :
    (Call.team team permissions members).writes.foldl (Directory.apply id) directory =
      { directory with
        teams := fun user =>
          if user ∈ members then (directory.teams user).insert team else directory.teams user
        teamRoles := update directory.teamRoles team ((directory.teamRoles team).insert (roleOf team))
        permissions := update directory.permissions (roleOf team) (.ofList permissions) } := by
  rw [Call.writes, List.foldl_append, Directory.foldl_addTeamMember]
  rfl

theorem Equips.permissions_append (equips : Equips calls directory) (call : Call) (name : String) :
    update directory.permissions (roleOf call.name) (.ofList call.permissions) (roleOf name) =
      .ofList ((lastTold (Call.given? name) (calls ++ [call])).getD []) := by
  rw [lastTold_append, Call.given?]
  by_cases same : call.name = name
  · rw [same, update_self, if_pos rfl]
    rfl
  · rw [update_of_ne (mt roleOf_inj.mp (Ne.symm same)), if_neg same]
    exact equips.permissions name

theorem Equips.createUser (equips : Equips calls directory) (user : UserId) (permissions : List PermissionId) :
    Equips (calls ++ [.user user permissions])
      ((Call.user user permissions).writes.foldl (Directory.apply id) directory) := by
  have created (other : UserId) :
      Created (calls ++ [.user user permissions]) other ↔ Created calls other ∨ other = user := by
    simp [Created, exists_or]
  have founded (team : TeamId) : Founded (calls ++ [.user user permissions]) team ↔ Founded calls team := by
    simp [Founded]
  rw [foldl_user]
  constructor
  · intro other account
    rw [created]
    by_cases same : other = user
    · subst same
      -- A user who is made anew keeps being root or not, and nobody who was made by a call is root.
      have notRoot : (directory.account other).any Account.isRoot = false := by
        cases found : directory.account other with
        | none => rfl
        | some account => rw [((equips.account other account).mp found).2]; rfl
      simp [notRoot, eq_comm]
    · simp [same, equips.account]
  · intro other role
    rw [created]
    refine mem_update_insert.trans ?_
    rw [equips.roles, or_and_right]
    exact or_congr_right (and_congr_right fun same => by rw [same])
  · intro other
    refine (equips.teams other).trans (ExtTreeSet.ext_mem fun team => ?_)
    simp [teamsOf_append, Call.listing?]
  · intro team role
    rw [founded]
    exact equips.teamRoles team role
  · exact equips.permissions_append (.user user permissions)

theorem Equips.foundTeam (equips : Equips calls directory) (team : TeamId) (permissions : List PermissionId)
    (members : List UserId) :
    Equips (calls ++ [.team team permissions members])
      ((Call.team team permissions members).writes.foldl (Directory.apply id) directory) := by
  have created (user : UserId) : Created (calls ++ [.team team permissions members]) user ↔ Created calls user := by
    simp [Created]
  have founded (other : TeamId) :
      Founded (calls ++ [.team team permissions members]) other ↔ Founded calls other ∨ other = team := by
    simp [Founded, exists_or]
  rw [foldl_team]
  constructor
  · intro user account
    rw [created]
    exact equips.account user account
  · intro user role
    rw [created]
    exact equips.roles user role
  · intro user
    refine ExtTreeSet.ext_mem fun other => ?_
    rw [teamsOf_append, ← equips.teams user]
    by_cases member : user ∈ members
    · simp [Call.listing?, member, or_comm]
    · simp [Call.listing?, member]
  · intro other role
    rw [founded]
    refine mem_update_insert.trans ?_
    rw [equips.teamRoles, or_and_right]
    exact or_congr_right (and_congr_right fun same => by rw [same])
  · exact equips.permissions_append (.team team permissions members)

theorem Equips.step (equips : Equips calls directory) (call : Call) :
    Equips (calls ++ [call]) (call.writes.foldl (Directory.apply id) directory) := by
  cases call with
  | user id permissions => exact equips.createUser id permissions
  | team id permissions members => exact equips.foundTeam id permissions members

theorem equips_run (calls : List Call) :
    Equips calls ((calls.flatMap Call.writes).foldl (Directory.apply id) .empty) := by
  induction calls using List.reverseRecOn with
  | nil => exact equips_empty
  | append_singleton calls call ih =>
    rw [List.flatMap_append, List.foldl_append, List.flatMap_singleton]
    exact ih.step call

end AccessControl.Fixture
