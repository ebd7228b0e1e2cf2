import AccessControl.Proofs.Store.Simulation

namespace AccessControl

namespace Store

variable [Store σ]

/-- What a write answers, and nothing when it is refused. -/
def receipt (store : σ) (change : Write) : Option Receipt :=
  ((write change).perform store).1.toOption

def step (store : σ) (change : Write) : σ :=
  ((write change).perform store).2

/-- The store after these writes. One that is refused does not keep the others from being carried out. -/
def after (store : σ) (changes : List Write) : σ :=
  changes.foldl step store

def receipts (store : σ) : List Write → List (Option Receipt)
  | [] => []
  | change :: rest => receipt store change :: receipts (step store change) rest

theorem after_append (store : σ) (changes : List Write) (change : Write) :
    after store (changes ++ [change]) = step (after store changes) change := by
  rw [after, List.foldl_append]
  rfl

/-- None of the writes is refused when its turn comes. -/
def Takes (store : σ) (changes : List Write) : Prop :=
  none ∉ receipts store changes

instance (store : σ) (changes : List Write) : Decidable (Takes store changes) :=
  inferInstanceAs (Decidable (none ∉ receipts store changes))

theorem takes_cons {store : σ} {change : Write} {rest : List Write} :
    Takes store (change :: rest) ↔ receipt store change ≠ none ∧ Takes (step store change) rest := by
  simp only [Takes, receipts, List.mem_cons, not_or, ne_eq, eq_comm (a := none)]

theorem takes_append {store : σ} {changes others : List Write} :
    Takes store (changes ++ others) ↔ Takes store changes ∧ Takes (after store changes) others := by
  induction changes generalizing store with
  | nil => simp [Takes, receipts, after]
  | cons change rest ih =>
    rw [List.cons_append, takes_cons, takes_cons, ih, and_assoc]
    rfl

/-- What each of the writes keeps holds after all of them if it held before. -/
theorem after_keeps {motive : σ → Prop} {changes : List Write}
    (keeps : ∀ change ∈ changes, ∀ store, motive store → motive (step store change)) {store : σ}
    (start : motive store) : motive (after store changes) := by
  induction changes generalizing store with
  | nil => exact start
  | cons change rest ih =>
    obtain ⟨now, later⟩ := List.forall_mem_cons.mp keeps
    exact ih later (now store start)

/-- Which users, roles and teams a store has. -/
class Roster (σ : Type) where
  HasUser : σ → UserId → Prop
  HasRole : σ → RoleId → Prop
  HasTeam : σ → TeamId → Prop

instance : Roster MemoryStore where
  HasUser store user := user ∈ store.users
  HasRole store role := role ∈ store.roles
  HasTeam store team := team ∈ store.teams

instance : Roster Database where
  HasUser tables user := user ∈ tables.users
  HasRole tables role := role ∈ tables.roles
  HasTeam tables team := team ∈ tables.teams

/-- A provider is told apart by its name, and only a user who exists is asked to verify an address. -/
def Admits (store : σ) : Write → Prop
  | .addUser _ provider => .ofName provider.name = provider
  | .setVerification user _ => ∃ principal, loadPrincipal store user = .ok (some principal)
  | _ => True

/-- Each write is admitted by the store as it is then. -/
def AdmitsAll (store : σ) : List Write → Prop
  | [] => True
  | change :: rest => Admits store change ∧ AdmitsAll (step store change) rest

theorem AdmitsAll.of_append {store : σ} {done rest : List Write} (admits : AdmitsAll store (done ++ rest)) :
    AdmitsAll store done := by
  induction done generalizing store with
  | nil => trivial
  | cons change others ih => exact ⟨admits.1, ih admits.2⟩

end Store

structure Agree (left : Except StoreError Receipt × MemoryStore) (right : Except StoreError Receipt × Database) :
    Prop where
  receipt : left.1.toOption = right.1.toOption
  simulates : Simulates left.2 right.2

namespace Simulates

variable {memory : MemoryStore} {tables : Database} {user : UserId} {role : RoleId} {team : TeamId}

theorem agree_setRoot (simulates : Simulates memory tables) (isRoot : Bool) :
    Agree ((MemoryStore.write (.setRoot user isRoot)).perform memory)
      ((Database.write (.setRoot user isRoot)).perform tables) := by
  rw [MemoryStore.perform_setRoot, Database.perform_setRoot, simulates.users]
  cases found : memory.users[user]? with
  | none => exact ⟨rfl, simulates⟩
  | some stored => exact ⟨rfl, simulates.putUser (simulates.providers user stored found) (by simp [found])⟩

theorem agree_addRolePermission (simulates : Simulates memory tables) (permission : PermissionId) :
    Agree ((MemoryStore.write (.addRolePermission role permission)).perform memory)
      ((Database.write (.addRolePermission role permission)).perform tables) := by
  have known : role ∈ tables.roles ↔ _ := simulates.mem_roles
  rw [MemoryStore.perform_addRolePermission, Database.perform_addRolePermission]
  cases found : memory.roles[role]? with
  | none =>
    rw [if_neg (by simp [known, found])]
    exact ⟨rfl, simulates⟩
  | some stored =>
    rw [if_pos (known.mpr ⟨stored, found⟩)]
    exact ⟨rfl, simulates.addRolePermission found⟩

theorem agree_assignRole (simulates : Simulates memory tables) :
    Agree ((MemoryStore.write (.assignRole user role)).perform memory)
      ((Database.write (.assignRole user role)).perform tables) := by
  have knownUser : user ∈ tables.users ↔ _ := simulates.mem_users
  have knownRole : role ∈ tables.roles ↔ _ := simulates.mem_roles
  rw [MemoryStore.perform_assignRole, Database.perform_assignRole]
  cases foundRole : memory.roles[role]? with
  | none =>
    rw [if_neg (by simp [knownRole, foundRole])]
    exact ⟨rfl, simulates⟩
  | some _ =>
    cases found : memory.users[user]? with
    | none =>
      rw [if_neg (by simp [knownUser, found])]
      exact ⟨rfl, simulates⟩
    | some stored =>
      rw [if_pos ⟨knownUser.mpr ⟨stored, found⟩, knownRole.mpr ⟨_, foundRole⟩⟩]
      exact ⟨rfl, simulates.assignRole found⟩

theorem agree_addTeamMember (simulates : Simulates memory tables) :
    Agree ((MemoryStore.write (.addTeamMember team user)).perform memory)
      ((Database.write (.addTeamMember team user)).perform tables) := by
  have knownUser : user ∈ tables.users ↔ _ := simulates.mem_users
  have knownTeam : team ∈ tables.teams ↔ _ := simulates.mem_teams
  rw [MemoryStore.perform_addTeamMember, Database.perform_addTeamMember]
  cases foundUser : memory.users[user]? with
  | none =>
    rw [if_neg (by simp [knownUser, foundUser])]
    exact ⟨rfl, simulates⟩
  | some _ =>
    cases found : memory.teams[team]? with
    | none =>
      rw [if_neg (by simp [knownTeam, found])]
      exact ⟨rfl, simulates⟩
    | some stored =>
      rw [if_pos ⟨knownTeam.mpr ⟨stored, found⟩, knownUser.mpr ⟨_, foundUser⟩⟩]
      exact ⟨rfl, simulates.addTeamMember found⟩

theorem agree_assignTeamRole (simulates : Simulates memory tables) :
    Agree ((MemoryStore.write (.assignTeamRole team role)).perform memory)
      ((Database.write (.assignTeamRole team role)).perform tables) := by
  have knownTeam : team ∈ tables.teams ↔ _ := simulates.mem_teams
  have knownRole : role ∈ tables.roles ↔ _ := simulates.mem_roles
  rw [MemoryStore.perform_assignTeamRole, Database.perform_assignTeamRole]
  cases foundRole : memory.roles[role]? with
  | none =>
    rw [if_neg (by simp [knownRole, foundRole])]
    exact ⟨rfl, simulates⟩
  | some _ =>
    cases found : memory.teams[team]? with
    | none =>
      rw [if_neg (by simp [knownTeam, found])]
      exact ⟨rfl, simulates⟩
    | some stored =>
      rw [if_pos ⟨knownTeam.mpr ⟨stored, found⟩, knownRole.mpr ⟨_, foundRole⟩⟩]
      exact ⟨rfl, simulates.assignTeamRole found⟩

theorem agree_setVerification (simulates : Simulates memory tables) (verifiedAt : Option Timestamp)
    (known : user ∈ tables.users) :
    Agree ((MemoryStore.write (.setVerification user verifiedAt)).perform memory)
      ((Database.write (.setVerification user verifiedAt)).perform tables) := by
  rw [MemoryStore.perform_setVerification, Database.perform_setVerification, if_pos known]
  exact ⟨rfl, simulates.setVerification verifiedAt⟩

theorem agree_revoke (simulates : Simulates memory tables) (key : GrantKey) :
    Agree ((MemoryStore.write (.revoke key)).perform memory) ((Database.write (.revoke key)).perform tables) := by
  rw [MemoryStore.perform_revoke, Database.perform_revoke]
  refine ⟨?_, simulates.dropGrant key⟩
  rw [MemoryStore.length_sub_length_filter simulates.distinctGrants, Database.rowsOf]
  simp only [simulates.mem_keys]

theorem agree_addUser (simulates : Simulates memory tables) {provider : AuthProvider}
    (faithful : .ofName provider.name = provider) :
    Agree ((MemoryStore.write (.addUser user provider)).perform memory)
      ((Database.write (.addUser user provider)).perform tables) := by
  rw [MemoryStore.perform_addUser, Database.perform_addUser, simulates.users]
  cases found : memory.users[user]? with
  | none => exact ⟨rfl, simulates.putUser faithful (by simp [found])⟩
  | some stored => exact ⟨rfl, simulates.putUser faithful (by simp [found])⟩

theorem agree_addTeam (simulates : Simulates memory tables) (name : String) :
    Agree ((MemoryStore.write (.addTeam team name)).perform memory)
      ((Database.write (.addTeam team name)).perform tables) := by
  rw [MemoryStore.perform_addTeam, Database.perform_addTeam]
  cases found : memory.teams[team]? with
  | none => exact ⟨rfl, simulates.putTeam (by simp [found]) (by simp [found])⟩
  | some stored => exact ⟨rfl, simulates.putTeam (by simp [found]) (by simp [found])⟩

/-- Both stores take a write or both refuse it, and what they are then still belongs together. -/
theorem agree_write (simulates : Simulates memory tables) {change : Write} (admits : Store.Admits memory change) :
    Agree ((MemoryStore.write change).perform memory) ((Database.write change).perform tables) := by
  cases change with
  | addUser user provider => exact simulates.agree_addUser admits
  | setRoot user isRoot => exact simulates.agree_setRoot isRoot
  | addRole role permissions =>
    rw [MemoryStore.perform_addRole, Database.perform_addRole]
    exact ⟨rfl, simulates.addRole permissions⟩
  | addRolePermission role permission => exact simulates.agree_addRolePermission permission
  | assignRole user role => exact simulates.agree_assignRole
  | addTeam team name => exact simulates.agree_addTeam name
  | addTeamMember team user => exact simulates.agree_addTeamMember
  | assignTeamRole team role => exact simulates.agree_assignTeamRole
  | grant grant =>
    rw [MemoryStore.perform_grant, Database.perform_grant]
    exact ⟨rfl, simulates.placeGrant grant⟩
  | revoke key => exact simulates.agree_revoke key
  | setVerification user verifiedAt =>
    obtain ⟨principal, loaded⟩ := admits
    refine simulates.agree_setVerification verifiedAt (simulates.mem_users.mpr ?_)
    have present : memory.loadPrincipal user = some principal := Except.ok.inj loaded
    obtain ⟨stored, found, _⟩ := Option.map_eq_some_iff.mp present
    exact ⟨stored, found⟩
  | requireVerification required =>
    rw [MemoryStore.perform_requireVerification, Database.perform_requireVerification]
    exact ⟨rfl, simulates.requireVerification required⟩
  | upsertPermissions permissions =>
    rw [MemoryStore.perform_upsertPermissions, Database.perform_upsertPermissions]
    exact ⟨rfl, simulates.overwrite permissions⟩

theorem receipts_eq (simulates : Simulates memory tables) {changes : List Write}
    (admits : Store.AdmitsAll memory changes) : Store.receipts memory changes = Store.receipts tables changes := by
  induction changes generalizing memory tables with
  | nil => rfl
  | cons change rest ih =>
    obtain ⟨now, later⟩ := admits
    have agrees := simulates.agree_write now
    exact List.cons_eq_cons.mpr ⟨agrees.receipt, ih agrees.simulates later⟩

theorem after (simulates : Simulates memory tables) {changes : List Write}
    (admits : Store.AdmitsAll memory changes) :
    Simulates (Store.after memory changes) (Store.after tables changes) := by
  induction changes generalizing memory tables with
  | nil => exact simulates
  | cons change rest ih =>
    obtain ⟨now, later⟩ := admits
    exact ih (simulates.agree_write now).simulates later

end Simulates

end AccessControl
