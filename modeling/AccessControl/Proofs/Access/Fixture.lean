import AccessControl.Proofs.Access.Standing
import AccessControl.Proofs.Directory.Fixture
import AccessControl.Proofs.Registry.Validation

namespace AccessControl.Fixture

open Store

/-- What is to be permitted, if it is to the user of this name. -/
def Call.givenUser? (name : UserId) : Call → Option (List PermissionId)
  | .user id permissions => if id = name then some permissions else none
  | .team _ _ _ => none

/-- What is to be permitted, if it is to the team of this name. -/
def Call.givenTeam? (name : TeamId) : Call → Option (List PermissionId)
  | .user _ _ => none
  | .team id permissions _ => if id = name then some permissions else none

/-- What was given last under the name of the user and under those of the user's teams. -/
def heldByName (calls : List Call) (user : UserId) : Set PermissionId :=
  {id | ∃ name, (name = user ∨ name ∈ teamsOf calls user) ∧
    ∃ permissions, lastTold (Call.given? name) calls = some permissions ∧ id ∈ permissions}

/-- What was given last to the user and to the user's teams. -/
def held (calls : List Call) (user : UserId) : Set PermissionId :=
  {id | (∃ permissions, lastTold (Call.givenUser? user) calls = some permissions ∧ id ∈ permissions) ∨
    ∃ team ∈ teamsOf calls user,
      ∃ permissions, lastTold (Call.givenTeam? team) calls = some permissions ∧ id ∈ permissions}

/-- No team has the name of the user, and no user has the name of one of the user's teams. -/
structure Unshared (calls : List Call) (user : UserId) : Prop where
  noTeam : ¬ Founded calls user
  noUser : ∀ team ∈ teamsOf calls user, ¬ Created calls team

variable {calls : List Call} {call : Call} {store after : MemoryStore} {user : UserId} {registry : Registry}

theorem heldByName_eq_held (unshared : Unshared calls user) : heldByName calls user = held calls user := by
  -- Under a name that is not shared it makes no difference whether users and teams are told apart.
  have own : lastTold (Call.given? user) calls = lastTold (Call.givenUser? user) calls := by
    refine lastTold_congr fun call made => ?_
    cases call with
    | user id permissions => rfl
    | team id permissions members =>
      refine if_neg fun same => unshared.noTeam ⟨permissions, members, ?_⟩
      exact same ▸ made
  have shared : ∀ team ∈ teamsOf calls user,
      lastTold (Call.given? team) calls = lastTold (Call.givenTeam? team) calls := by
    intro team member
    refine lastTold_congr fun call made => ?_
    cases call with
    | user id permissions =>
      refine if_neg fun same => unshared.noUser team member ⟨permissions, ?_⟩
      exact same ▸ made
    | team id permissions members => rfl
  ext id
  constructor
  · rintro ⟨name, rfl | member, permissions, given, listed⟩
    · exact .inl ⟨permissions, own ▸ given, listed⟩
    · exact .inr ⟨name, member, permissions, shared name member ▸ given, listed⟩
  · rintro (⟨permissions, given, listed⟩ | ⟨team, member, permissions, given, listed⟩)
    · exact ⟨user, .inl rfl, permissions, own ▸ given, listed⟩
    · exact ⟨team, .inr member, permissions, shared team member ▸ given, listed⟩

theorem CarriesOut.directory {action : Action MemoryStore Unit} {writes : List Write}
    (carries : CarriesOut action writes) (done : action.perform store = (.ok (), after)) :
    after.directory = writes.foldl (Directory.apply id) store.directory := by
  obtain ⟨takes, rfl⟩ := (carries store after).mp done
  exact DirectoryStore.directory_after takes

theorem equips_of_perform (succeeded : (calls.forM Call.action).perform Store.empty = (.ok (), store)) :
    Equips calls store.directory := by
  rw [(carriesOut_forM Call.carriesOut).directory succeeded, MemoryStore.directory_empty]
  exact equips_run calls

theorem Equips.perform (equips : Equips calls store.directory)
    (done : call.action.perform store = (.ok (), after)) : Equips (calls ++ [call]) after.directory := by
  rw [call.carriesOut.directory done]
  exact equips.step call

theorem Equips.carries_iff (equips : Equips calls store.directory) (created : Created calls user) {role : RoleId} :
    store.directory.Carries user role ↔ ∃ name, (name = user ∨ name ∈ teamsOf calls user) ∧ role = roleOf name := by
  have founded : ∀ team ∈ teamsOf calls user, Founded calls team := by
    intro team member
    obtain ⟨permissions, members, made, _⟩ := mem_teamsOf.mp member
    exact ⟨permissions, members, made⟩
  simp only [Directory.Carries, equips.roles, equips.teamRoles, equips.teams]
  constructor
  · rintro (⟨_, own⟩ | ⟨team, member, _, shared⟩)
    · exact ⟨user, .inl rfl, own⟩
    · exact ⟨team, .inr member, shared⟩
  · rintro ⟨name, rfl | member, same⟩
    · exact .inl ⟨created, same⟩
    · exact .inr ⟨name, member, founded name member, same⟩

theorem Equips.permissions_eq (equips : Equips calls store.directory) (created : Created calls user)
    {principal : Principal} (present : store.facts.principal user = some principal) :
    principal.permissions = heldByName calls user := by
  ext id
  rw [store.follows.mem_permissions present]
  constructor
  · rintro ⟨role, carried, permitted⟩
    obtain ⟨name, named, rfl⟩ := (equips.carries_iff created).mp carried
    rw [equips.permissions, Std.ExtTreeSet.mem_ofList, List.contains_iff_mem] at permitted
    cases given : lastTold (Call.given? name) calls with
    | none => simp [given] at permitted
    | some permissions => exact ⟨name, named, permissions, given, by simpa [given] using permitted⟩
  · rintro ⟨name, named, permissions, given, listed⟩
    refine ⟨roleOf name, (equips.carries_iff created).mpr ⟨name, named, rfl⟩, ?_⟩
    rw [equips.permissions, given, Std.ExtTreeSet.mem_ofList, List.contains_iff_mem]
    exact listed

/-- All that was given under the names is registered where all that the calls name is. -/
theorem registered_of_heldByName (registered : ∀ call ∈ calls, ∀ id ∈ call.permissions, id ∈ registry) :
    ∀ id ∈ heldByName calls user, id ∈ registry := by
  rintro id ⟨name, _, permissions, given, listed⟩
  obtain ⟨call, made, told⟩ := List.mem_filterMap.mp (List.mem_of_getLast? given)
  obtain ⟨_, rfl⟩ : call.name = name ∧ call.permissions = permissions := by simpa [Call.given?] using told
  exact registered call made id listed

/-- A user whose name and teams are these is granted what was given last under them. -/
theorem Equips.load_granted (equips : Equips calls store.directory) (safe : registry.Safe)
    (registered : ∀ call ∈ calls, ∀ id ∈ call.permissions, id ∈ registry) (created : Created calls user)
    (enforceVerification : Bool) :
    ∃ permissions : PermissionSet,
      (Loader.load ⟨registry, source store, enforceVerification⟩ user).result =
        .ok (.granted user (teamsOf calls user).toList permissions) ∧
      ∀ id, id ∈ permissions ↔ id ∈ registry.impliedBy (heldByName calls user) := by
  have known := (equips.account user _).mpr ⟨created, rfl⟩
  obtain ⟨principal, present⟩ := store.follows.present known
  have account := store.follows.account present
  rw [known, Option.some.injEq, Account.mk.injEq] at account
  obtain ⟨notRoot, elsewhere⟩ := account
  have verified : ¬ store.facts.Pending enforceVerification principal := by
    rintro ⟨_, signsInHere, _⟩
    rw [signsInHere] at elsewhere
    cases elsewhere
  let loader : Loader := ⟨registry, source store, enforceVerification⟩
  obtain ⟨outcome, settles, shape⟩ := loader.load_outcome store.source_tells user
  rw [settles.result_eq]
  have ids : principal.teamIds = (teamsOf calls user).toList := by
    rw [store.follows.teamIds present, equips.teams]
  have given : principal.permissions ∪ ∅ = heldByName calls user := by
    rw [Set.union_empty, equips.permissions_eq created present]
  rcases shape.eq_granted present notRoot.symm verified with
    ⟨permissions, granted, members, _⟩ | ⟨culprit, implied, missing, _⟩
  · rw [given] at members
    exact ⟨permissions, by rw [granted, ids], members⟩
  · rw [given] at implied
    exact absurd (safe.mem_of_implied (registered_of_heldByName registered) implied) missing

/-- A call under another name than the user's and those of the user's teams. -/
structure Elsewhere (calls : List Call) (call : Call) (user : UserId) : Prop where
  otherName : call.name ≠ user
  otherTeam : call.name ∉ teamsOf (calls ++ [call]) user

theorem Elsewhere.teamsOf_eq (elsewhere : Elsewhere calls call user) :
    teamsOf (calls ++ [call]) user = teamsOf calls user := by
  refine Std.ExtTreeSet.ext_mem fun team => ?_
  rw [teamsOf_append]
  refine or_iff_left fun listed => ?_
  cases call with
  | user => cases listed
  | team id permissions members =>
    obtain ⟨member, rfl⟩ : user ∈ members ∧ id = team := by simpa [Call.listing?] using listed
    exact elsewhere.otherTeam (teamsOf_append.mpr (.inr (if_pos member)))

theorem Elsewhere.heldByName_eq (elsewhere : Elsewhere calls call user) :
    heldByName (calls ++ [call]) user = heldByName calls user := by
  have kept : ∀ name, name = user ∨ name ∈ teamsOf calls user →
      lastTold (Call.given? name) (calls ++ [call]) = lastTold (Call.given? name) calls := by
    intro name named
    have other : call.name ≠ name := by
      rintro rfl
      rcases named with same | member
      · exact elsewhere.otherName same
      · exact elsewhere.otherTeam (elsewhere.teamsOf_eq ▸ member)
    rw [lastTold_append, Call.given?, if_neg other, Option.none_or]
  ext id
  unfold heldByName
  rw [elsewhere.teamsOf_eq]
  exact exists_congr fun name => and_congr_right fun named => by rw [kept name named]

/-- After calls that succeed, over a registry that is valid and has all that they name, each user who was made is
granted what was given last under the user's name and those of the user's teams. That is what was given to the user and
to these teams, unless one of the names was used for a user and for a team; and a call under another name changes
nothing. -/
theorem granted_by_name (registry : Registry) (valid : registry.validateGraph = .ok ()) (enforceVerification : Bool)
    (calls : List Call) (store : MemoryStore)
    (succeeded : (calls.forM Call.action).perform Store.empty = (.ok (), store))
    (registered : ∀ call ∈ calls, ∀ id ∈ call.permissions, id ∈ registry) (user : UserId)
    (created : Created calls user) :
    let load (store : MemoryStore) := (Loader.load ⟨registry, source store, enforceVerification⟩ user).result
    (∃ permissions : PermissionSet, load store = .ok (.granted user (teamsOf calls user).toList permissions) ∧
      (∀ id, id ∈ permissions ↔ id ∈ registry.impliedBy (heldByName calls user)) ∧
      (Unshared calls user → ∀ id, id ∈ permissions ↔ id ∈ registry.impliedBy (held calls user))) ∧
    ∀ call after, call.action.perform store = (.ok (), after) → (∀ id ∈ call.permissions, id ∈ registry) →
      Elsewhere calls call user → load after = load store := by
  have safe := Registry.validateGraph_eq_ok_iff.mp valid
  have equips := equips_of_perform succeeded
  obtain ⟨permissions, loaded, members⟩ := equips.load_granted safe registered created enforceVerification
  refine ⟨⟨permissions, loaded, members, fun unshared => heldByName_eq_held unshared ▸ members⟩, ?_⟩
  intro call after done callRegistered elsewhere
  have allRegistered : ∀ made ∈ calls ++ [call], ∀ id ∈ made.permissions, id ∈ registry := by
    intro made member
    rcases List.mem_append.mp member with before | last
    · exact registered made before
    · exact List.mem_singleton.mp last ▸ callRegistered
  have createdBefore : Created (calls ++ [call]) user := by
    obtain ⟨permissions, made⟩ := created
    exact ⟨permissions, List.mem_append_left _ made⟩
  obtain ⟨others, reloaded, sameMembers⟩ :=
    (equips.perform done).load_granted safe allRegistered createdBefore enforceVerification
  rw [elsewhere.heldByName_eq] at sameMembers
  have same : others = permissions :=
    Std.ExtTreeSet.ext_mem fun id => (sameMembers id).trans (members id).symm
  dsimp only
  rw [reloaded, loaded, elsewhere.teamsOf_eq, same]

/-- A user is made twice and is then listed in a team. -/
def writers : List Call :=
  [.user "ann" ["edit"], .user "ann" [], .team "writers" ["read"] ["ann"]]

theorem mem_teamsOf_writers {team : TeamId} : team ∈ teamsOf writers "ann" ↔ team = "writers" := by
  simp [mem_teamsOf, writers]

theorem writers_unshared : Unshared writers "ann" where
  noTeam := by simp [Founded, writers]
  noUser team member := by
    rw [mem_teamsOf_writers.mp member]
    simp [Created, writers]

theorem mem_held_writers {id : PermissionId} : id ∈ held writers "ann" ↔ id = "read" := by
  have own : lastTold (Call.givenUser? "ann") writers = some [] := by decide
  have shared : lastTold (Call.givenTeam? "writers") writers = some ["read"] := by decide
  simp [held, mem_teamsOf_writers, own, shared]

/-- What the user had at first is gone, the team's is there, and another user makes no difference. -/
theorem ann_reads :
    Registry.editing.validateGraph = .ok () ∧ Unshared writers "ann" ∧
      ∃ store after, (writers.forM Call.action).perform Store.empty = (.ok (), store) ∧
        (Call.action (.user "bob" ["edit"])).perform store = (.ok (), after) ∧
        ∃ permissions : PermissionSet, "read" ∈ permissions ∧ "edit" ∉ permissions ∧
          (Loader.load ⟨.editing, source store, true⟩ "ann").result = .ok (.granted "ann" ["writers"] permissions) ∧
          (Loader.load ⟨.editing, source after, true⟩ "ann").result = .ok (.granted "ann" ["writers"] permissions) := by
  have valid := Registry.validateGraph_eq_ok_iff.mpr Registry.editing_safe
  obtain ⟨store, after, succeeded, done⟩ : ∃ store after,
      (writers.forM Call.action).perform Store.empty = (.ok (), store) ∧
        (Call.action (.user "bob" ["edit"])).perform store = (.ok (), after) := ⟨_, _, rfl, rfl⟩
  obtain ⟨⟨permissions, loaded, _, members⟩, unmoved⟩ := granted_by_name .editing valid true writers store succeeded
    (by decide) "ann" ⟨["edit"], by decide⟩
  have members := members writers_unshared
  have teams : (teamsOf writers "ann").toList = ["writers"] := by decide
  rw [teams] at loaded
  have same := unmoved (.user "bob" ["edit"]) after done (by decide) ⟨by decide, by decide⟩
  refine ⟨valid, writers_unshared, store, after, succeeded, done, permissions, ?_, ?_, loaded, same.trans loaded⟩
  · exact (members "read").mpr (Registry.subset_impliedBy (mem_held_writers.mpr rfl))
  · intro granted
    rcases Registry.mem_of_editing_impliedBy ((members "edit").mp granted) with given | same
    · exact absurd (mem_held_writers.mp given) (by decide)
    · exact absurd same (by decide)

/-- A user and a team of one name: making the team takes from the user what the user had, and gives the user what
belongs to the team, though the user is not in it. -/
theorem namesakes_share :
    let calls := [Call.user "ops" ["read"], .team "ops" ["edit"] []]
    Registry.editing.validateGraph = .ok () ∧ Created calls "ops" ∧ teamsOf calls "ops" = ∅ ∧
      ∃ store permissions, (calls.forM Call.action).perform Store.empty = (.ok (), store) ∧
        (Loader.load ⟨.editing, source store, true⟩ "ops").result = .ok (.granted "ops" [] permissions) ∧
        "edit" ∈ permissions ∧ "edit" ∉ Registry.editing.impliedBy (held calls "ops") := by
  intro calls
  have safe := Registry.editing_safe
  obtain ⟨store, succeeded⟩ : ∃ store, (calls.forM Call.action).perform Store.empty = (.ok (), store) := ⟨_, rfl⟩
  have created : Created calls "ops" := ⟨["read"], by decide⟩
  obtain ⟨permissions, loaded, members⟩ :=
    (equips_of_perform succeeded).load_granted safe (by decide) created true
  have noTeams : teamsOf calls "ops" = ∅ := by decide
  rw [noTeams] at loaded
  refine ⟨Registry.validateGraph_eq_ok_iff.mpr safe, created, noTeams, store, permissions, succeeded, loaded, ?_, ?_⟩
  · exact (members "edit").mpr (Registry.subset_impliedBy ⟨"ops", .inl rfl, ["edit"], by decide, by decide⟩)
  · intro implied
    have own : lastTold (Call.givenUser? "ops") calls = some ["read"] := by decide
    have given := (Registry.mem_of_editing_impliedBy implied).resolve_right (by decide)
    simp [held, noTeams, own] at given

end AccessControl.Fixture
