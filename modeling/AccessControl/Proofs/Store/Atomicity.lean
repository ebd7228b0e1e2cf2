import AccessControl.Proofs.Directory.Tables
import AccessControl.Proofs.Store.Catalog

namespace AccessControl

open Std Transition

/-- How each step of a write fails, if the store fails of itself there; the first step is number 0. A lock that is not
got and a transaction that is not begun are failures of the first step. -/
abbrev Failures := Nat → Option StoreError

/-- None of so many steps fails. -/
def Failures.Spare (failures : Failures) (steps : Nat) : Prop :=
  ∀ position < steps, failures position = none

namespace Action

/-- The action, or the failure that comes before it. -/
def interruptedBy (failure : Option StoreError) (action : Action σ α) : Action σ α :=
  match failure with
  | some error => throw error
  | none => action

theorem perform_interruptedBy (failure : Option StoreError) (action : Action σ α) (store : σ) :
    (action.interruptedBy failure).perform store =
      match failure with
      | some error => (.error error, store)
      | none => action.perform store := by
  cases failure <;> rfl

end Action

/-- If this is a failure, the state is what it was before. -/
def Atomic (before : σ) (outcome : Except StoreError α × σ) : Prop :=
  ∀ error, outcome.1 = .error error → outcome.2 = before

theorem Atomic.answer {before after : σ} {answer : α} : Atomic before (.ok answer, after) := by
  intro error failed
  cases failed

theorem Atomic.unchanged {before : σ} {outcome : Except StoreError α} : Atomic before (outcome, before) :=
  fun _ _ => rfl

namespace MemoryStore

theorem write_atomic (store : MemoryStore) (change : Write) : Atomic store ((write change).perform store) := by
  cases change with
  | addUser user provider => rw [perform_addUser]; exact .answer
  | setRoot user isRoot =>
    rw [perform_setRoot]
    cases store.users[user]? with
    | none => exact .unchanged
    | some _ => exact .answer
  | addRole role permissions => exact .answer
  | addRolePermission role permission =>
    rw [perform_addRolePermission]
    cases store.roles[role]? with
    | none => exact .unchanged
    | some _ => exact .answer
  | assignRole user role =>
    rw [perform_assignRole]
    -- The role is looked up first, and the user only if there is that role.
    cases store.roles[role]? with
    | none => exact .unchanged
    | some _ =>
      cases store.users[user]? with
      | none => exact .unchanged
      | some _ => exact .answer
  | addTeam team name => rw [perform_addTeam]; exact .answer
  | addTeamMember team user =>
    rw [perform_addTeamMember]
    cases store.users[user]? with
    | none => exact .unchanged
    | some _ =>
      cases store.teams[team]? with
      | none => exact .unchanged
      | some _ => exact .answer
  | assignTeamRole team role =>
    rw [perform_assignTeamRole]
    cases store.roles[role]? with
    | none => exact .unchanged
    | some _ =>
      cases store.teams[team]? with
      | none => exact .unchanged
      | some _ => exact .answer
  | grant grant => exact .answer
  | revoke key => exact .answer
  | setVerification user verifiedAt => exact .answer
  | requireVerification required => exact .answer
  | upsertPermissions permissions => rw [perform_upsertPermissions]; exact .answer

/-- A write by a store in memory, which fails of itself only before it begins. -/
def writeUnder (failures : Failures) (change : Write) : Action MemoryStore Receipt :=
  (write change).interruptedBy (failures 0)

theorem writeUnder_atomic (store : MemoryStore) (failures : Failures) (change : Write) :
    Atomic store ((writeUnder failures change).perform store) := by
  rw [writeUnder, Action.perform_interruptedBy]
  cases failures 0 with
  | some _ => exact .unchanged
  | none => exact store.write_atomic change

end MemoryStore

namespace Database

variable {tables : Database} {failures : Failures}

theorem atomic_guarded {present : Prop} [Decidable present] {receipt : Receipt} {changed : Database} :
    Atomic tables (if present then (.ok receipt, changed) else (.error orphaned, tables)) := by
  split
  · exact .answer
  · exact .unchanged

theorem write_atomic (tables : Database) (change : Write) : Atomic tables ((write change).perform tables) := by
  cases change with
  | addUser user provider => exact .answer
  | setRoot user isRoot =>
    rw [perform_setRoot]
    cases tables.users[user]? with
    | none => exact .unchanged
    | some _ => exact .answer
  | addRole role permissions => rw [perform_addRole]; exact .answer
  | addRolePermission role permission => rw [perform_addRolePermission]; exact atomic_guarded
  | assignRole user role => rw [perform_assignRole]; exact atomic_guarded
  | addTeam team name => exact .answer
  | addTeamMember team user => rw [perform_addTeamMember]; exact atomic_guarded
  | assignTeamRole team role => rw [perform_assignTeamRole]; exact atomic_guarded
  | grant grant => exact .answer
  | revoke key => exact .answer
  | setVerification user verifiedAt => rw [perform_setVerification]; exact atomic_guarded
  | requireVerification required => exact .answer
  | upsertPermissions permissions => rw [perform_upsertPermissions]; exact .answer

/-- The statements, of which those that the failures name fail instead. -/
def interrupted (failures : Failures) (statements : List Statement) : List Statement :=
  statements.mapIdx fun position statement => statement.interruptedBy (failures position)

theorem interrupted_of_spare {statements : List Statement} (spare : failures.Spare statements.length) :
    interrupted failures statements = statements := by
  refine List.ext_getElem (by simp [interrupted]) fun position _ bound => ?_
  simp only [interrupted, List.getElem_mapIdx, spare position bound]
  rfl

/-- Once a statement fails, so do the statements together. -/
theorem interrupted_fails {statements : List Statement} (struck : ¬ failures.Spare statements.length)
    (tables : Database) : ∃ error after,
      Transition.perform ((interrupted failures statements).forM id) tables = (.error error, after) := by
  induction statements generalizing failures tables with
  | nil => exact absurd (fun _ bound => absurd bound (Nat.not_lt_zero _)) struck
  | cons first rest ih =>
    have split : interrupted failures (first :: rest) =
        first.interruptedBy (failures 0) :: interrupted (fun position => failures (position + 1)) rest :=
      List.mapIdx_cons
    rw [split, List.forM_eq_forM, List.forM_cons, id, perform_bind, Action.perform_interruptedBy]
    cases here : failures 0 with
    | some error => exact ⟨error, tables, rfl⟩
    | none =>
      have later : ¬ Failures.Spare (fun position => failures (position + 1)) rest.length := by
        intro spare
        refine struck fun position bound => ?_
        cases position with
        | zero => exact here
        | succ position => exact spare position (by simpa using bound)
      dsimp only
      obtain ⟨outcome, after⟩ := first.perform tables
      cases outcome with
      | error error => exact ⟨error, after, rfl⟩
      | ok _ => exact ih later after

/-- A transaction takes back what its statements have done before one of them fails. -/
theorem perform_transaction_interrupted {statements : List Statement} (struck : ¬ failures.Spare statements.length)
    (tables : Database) :
    ∃ error, (transaction (interrupted failures statements)).perform tables = (.error error, tables) := by
  obtain ⟨error, after, failed⟩ := interrupted_fails struck tables
  refine ⟨error, ?_⟩
  rw [perform_transaction, failed]

/-- Ends a transaction for good. -/
def commit : Statement :=
  pure ()

theorem perform_transaction_commit (statements : List Statement) (tables : Database) :
    (transaction (statements ++ [commit])).perform tables = (transaction statements).perform tables := by
  rw [perform_transaction, perform_transaction, List.forM_eq_forM, List.forM_append, perform_bind]
  obtain ⟨outcome, after⟩ := Transition.perform (forM statements id) tables
  cases outcome <;> rfl

/-- The statements and the answer of a write that takes a transaction of several statements. -/
def batch? : Write → Option (List Statement × Receipt)
  | .addRole role permissions => some (addRoleStatements role permissions, .done)
  | .upsertPermissions permissions => some (upsertStatements permissions, .count permissions.length)
  | _ => none

theorem write_of_batch? {change : Write} {statements : List Statement} {receipt : Receipt}
    (batch : batch? change = some (statements, receipt)) :
    write change = (transaction statements).answering receipt := by
  cases change <;> cases batch
  case addRole role permissions => rfl
  case upsertPermissions permissions => exact Action.map_answering _ _ _

/-- The number of steps of a write. The last one of a transaction commits it. -/
def steps (change : Write) : Nat :=
  match batch? change with
  | some (statements, _) => (statements ++ [commit]).length
  | none => 1

/-- A write by a database that may fail of itself at any step. -/
def writeUnder (failures : Failures) (change : Write) : Action Database Receipt :=
  match batch? change with
  | some (statements, receipt) => (transaction (interrupted failures (statements ++ [commit]))).answering receipt
  | none => (write change).interruptedBy (failures 0)

theorem writeUnder_of_spare {change : Write} (spare : failures.Spare (steps change)) (tables : Database) :
    (writeUnder failures change).perform tables = (write change).perform tables := by
  unfold steps at spare
  unfold writeUnder
  cases batch : batch? change with
  | some transacted =>
    rw [batch] at spare
    dsimp only
    rw [interrupted_of_spare spare, write_of_batch? batch, Action.perform_answering, Action.perform_answering,
      perform_transaction_commit]
  | none =>
    rw [batch] at spare
    rw [spare 0 Nat.one_pos]
    rfl

theorem writeUnder_fails {change : Write} (struck : ¬ failures.Spare (steps change)) (tables : Database) :
    ∃ error, (writeUnder failures change).perform tables = (.error error, tables) := by
  unfold steps at struck
  unfold writeUnder
  cases batch : batch? change with
  | some transacted =>
    rw [batch] at struck
    obtain ⟨error, failed⟩ := perform_transaction_interrupted struck tables
    refine ⟨error, ?_⟩
    dsimp only
    rw [Action.perform_answering, failed]
    rfl
  | none =>
    rw [batch] at struck
    dsimp only
    rw [Action.perform_interruptedBy]
    cases first : failures 0 with
    | some error => exact ⟨error, rfl⟩
    | none =>
      refine absurd (fun position bound => ?_) struck
      obtain rfl : position = 0 := Nat.lt_one_iff.mp bound
      exact first

theorem writeUnder_atomic (tables : Database) (failures : Failures) (change : Write) :
    Atomic tables ((writeUnder failures change).perform tables) := by
  by_cases spare : failures.Spare (steps change)
  · rw [writeUnder_of_spare spare]
    exact tables.write_atomic change
  · obtain ⟨error, failed⟩ := writeUnder_fails spare tables
    rw [failed]
    exact .unchanged

/-- The role has just these permissions, and others have what they had. -/
structure RoleReplaced (before after : Database) (role : RoleId) (permissions : List PermissionId) : Prop where
  present : role ∈ after.roles
  permissions : ∀ id, id ∈ after.permissionsOf role ↔ id ∈ permissions
  others : ∀ other, other ≠ role → after.permissionsOf other = before.permissionsOf other

/-- The catalog has these permissions, the last one of each id, and others as they were. -/
def CatalogOverwritten (before after : Database) (permissions : List Permission) : Prop :=
  ∀ id row, after.permissions[id]? = some row ↔
    (∃ last, LastUnderId permissions last ∧ last.id = id ∧ CatalogRow.ofPermission last = row) ∨
      (∀ permission ∈ permissions, permission.id ≠ id) ∧ before.permissions[id]? = some row

theorem roleReplaced_addRole (tables : Database) (role : RoleId) (permissions : List PermissionId) :
    RoleReplaced tables (Store.step tables (.addRole role permissions)) role permissions where
  present := by
    rw [step_addRole]
    exact ExtTreeMap.mem_insertIfNew_self
  permissions id := by
    rw [← toList_directory_permissions, directory_permissions_addRole, Function.update_self]
    simp
  others other different := by
    rw [← toList_directory_permissions, ← toList_directory_permissions, directory_permissions_addRole,
      Function.update_of_ne different]

theorem catalogOverwritten_upsertPermissions (tables : Database) (permissions : List Permission) :
    CatalogOverwritten tables (Store.step tables (.upsertPermissions permissions)) permissions := by
  change CatalogOverwritten tables ((write (.upsertPermissions permissions)).perform tables).2 permissions
  rw [perform_upsertPermissions]
  exact fun _ _ => getElem?_overwriteEntries

/-- A write that is answered has been carried out as a whole. -/
theorem eq_step_of_answered {change : Write} {receipt : Receipt} {after : Database}
    (answered : (writeUnder failures change).perform tables = (.ok receipt, after)) :
    after = Store.step tables change := by
  by_cases spare : failures.Spare (steps change)
  · rw [writeUnder_of_spare spare] at answered
    exact (congrArg Prod.snd answered).symm
  · obtain ⟨error, failed⟩ := writeUnder_fails spare tables
    rw [failed] at answered
    cases answered

/-- The write fails, and no table has changed, or else it does what it does without failures. -/
structure AllOrNothing (tables : Database) (failures : Failures) (change : Write) : Prop where
  atomic : Atomic tables ((writeUnder failures change).perform tables)
  fails : ¬ failures.Spare (steps change) → ∃ error, ((writeUnder failures change).perform tables).1 = .error error
  spared : failures.Spare (steps change) →
    (writeUnder failures change).perform tables = (write change).perform tables

theorem allOrNothing (tables : Database) (failures : Failures) (change : Write) :
    tables.AllOrNothing failures change where
  atomic := tables.writeUnder_atomic failures change
  fails struck := by
    obtain ⟨error, failed⟩ := writeUnder_fails struck tables
    exact ⟨error, congrArg Prod.fst failed⟩
  spared spare := writeUnder_of_spare spare tables

end Database

namespace Store

/-- No write that fails leaves a trace in either store, whether it is refused or the store fails of itself at any step
of it, and a transaction that succeeds is there as a whole. -/
theorem failed_writes_leave_no_trace (failures : Failures) :
    (∀ (store : MemoryStore) change, Atomic store ((write change).perform store) ∧
      Atomic store ((MemoryStore.writeUnder failures change).perform store)) ∧
    ∀ tables : Database,
      (∀ change, Atomic tables ((write change).perform tables) ∧ tables.AllOrNothing failures change) ∧
      (∀ role permissions receipt after,
        (Database.writeUnder failures (.addRole role permissions)).perform tables = (.ok receipt, after) →
          tables.RoleReplaced after role permissions) ∧
      ∀ permissions receipt after,
        (Database.writeUnder failures (.upsertPermissions permissions)).perform tables = (.ok receipt, after) →
          tables.CatalogOverwritten after permissions := by
  refine ⟨fun store change => ⟨store.write_atomic change, store.writeUnder_atomic failures change⟩, fun tables =>
    ⟨fun change => ⟨tables.write_atomic change, tables.allOrNothing failures change⟩, ?_, ?_⟩⟩
  · intro role permissions receipt after answered
    rw [Database.eq_step_of_answered answered]
    exact tables.roleReplaced_addRole role permissions
  · intro permissions receipt after answered
    rw [Database.eq_step_of_answered answered]
    exact tables.catalogOverwritten_upsertPermissions permissions

/-- A role whose permissions are about to be replaced. -/
def desk : Database :=
  after .empty [.addRole "editor" ["edit", "read"]]

/-- The disk is full when the second of the new permissions is to be inserted. -/
def diskFull : Failures :=
  fun position => if position = 3 then some (.database "database or disk is full") else none

/-- The old permissions were deleted already and one of the new ones inserted, and all of that is taken back. -/
theorem desk_restored :
    (Transition.perform ((Database.interrupted diskFull (Database.addRoleStatements "editor" ["print", "scan"])).forM id)
      desk).2.permissionsOf "editor" = ["print"] ∧
    (∃ error, ((Database.writeUnder diskFull (.addRole "editor" ["print", "scan"])).perform desk).1 = .error error) ∧
    ((Database.writeUnder diskFull (.addRole "editor" ["print", "scan"])).perform desk).2 = desk ∧
    desk.permissionsOf "editor" = ["edit", "read"] := by
  obtain ⟨_, whole⟩ := (failed_writes_leave_no_trace diskFull).2 desk |>.1 (.addRole "editor" ["print", "scan"])
  have struck : ¬ diskFull.Spare (Database.steps (.addRole "editor" ["print", "scan"])) := by
    intro spare
    cases spare 3 (by decide)
  obtain ⟨error, failed⟩ := whole.fails struck
  exact ⟨by decide +kernel, ⟨error, failed⟩, whole.atomic error failed, by decide +kernel⟩

end Store

end AccessControl
