import Mathlib.Data.List.Induction
import AccessControl.Permission.Normal
import AccessControl.Proofs.Store.Rows

/-!
Joined rows put together to roles. Rows are read one by one, and each is compared with the role begun last only. Where
the rows of a role stand together, that is enough: each role comes out once, with all its permissions.
-/

namespace AccessControl

attribute [ext] Role

/-- No row of another role stands between two rows of one role. -/
def Together (rows : List RoleRow) : Prop :=
  ∀ first middle last : RoleRow, [first, middle, last].Sublist rows → first.role = last.role → middle.role = first.role

def NamesAgree (rows : List RoleRow) : Prop :=
  ∀ row ∈ rows, ∀ other ∈ rows, row.role = other.role → row.name = other.name

/-- The permissions in the rows of one role. -/
def permissionsIn (rows : List RoleRow) (role : RoleId) : List PermissionId :=
  (rows.filter fun row => row.role = role).filterMap RoleRow.permission

/-- These are the roles whose rows are given: one for each id, in the order in which the ids occur. -/
structure Regroups (rows : List RoleRow) (roles : List Role) : Prop where
  ids : roles.map Role.id = (rows.map RoleRow.role).eraseDups
  named : ∀ role ∈ roles, ∃ row ∈ rows, row.role = role.id ∧ row.name = role.name
  permissions : ∀ role ∈ roles, role.permissions = permissionsIn rows role.id

section

variable {rows : List RoleRow} {row : RoleRow} {roles others : List Role}

theorem permissionsIn_concat (rows : List RoleRow) (row : RoleRow) (role : RoleId) :
    permissionsIn (rows ++ [row]) role =
      permissionsIn rows role ++ if row.role = role then row.permission.toList else [] := by
  by_cases own : row.role = role
  · cases permission : row.permission <;> simp [permissionsIn, own, permission]
  · simp [permissionsIn, own]

theorem permissionsIn_eq_nil {role : RoleId} (absent : ∀ row ∈ rows, row.role ≠ role) :
    permissionsIn rows role = [] := by
  have none : rows.filter (fun row => row.role = role) = [] := by simpa using absent
  rw [permissionsIn, none, List.filterMap_nil]

theorem Together.of_concat (together : Together (rows ++ [row])) : Together rows :=
  fun first middle last within => together first middle last (within.trans (List.sublist_append_left rows [row]))

/-- A role that the row before does not belong to has no row before. -/
theorem Together.new (together : Together (rows ++ [row])) (apart : ∀ last ∈ rows.getLast?, last.role ≠ row.role) :
    ∀ earlier ∈ rows, earlier.role ≠ row.role := by
  intro earlier member same
  obtain ⟨front, last, rfl⟩ := (List.eq_nil_or_concat rows).resolve_left (List.ne_nil_of_mem member)
  rw [List.concat_eq_append] at *
  have differs : last.role ≠ row.role := apart last (by simp)
  rcases List.mem_append.mp member with before | same'
  · have within : [earlier, last, row].Sublist (front ++ [last] ++ [row]) :=
      ((List.singleton_sublist.mpr before).append (List.Sublist.refl [last])).append (List.Sublist.refl [row])
    exact differs ((together earlier last row within same).trans same)
  · rw [List.mem_singleton.mp same'] at same
    exact differs same

/-- Rows in the order of their roles stand together. -/
theorem Together.of_ordered (ordered : rows.Pairwise fun row later => compare row.role later.role ≠ .gt) :
    Together rows := by
  intro first middle last within same
  have ordered := ordered.sublist within
  simp only [List.pairwise_cons, List.mem_cons, List.not_mem_nil, or_false, forall_eq_or_imp, forall_eq] at ordered
  obtain ⟨⟨up, _⟩, down, _⟩ := ordered
  rw [← same] at down
  have le : compare first.role middle.role = .eq := by
    cases order : compare first.role middle.role with
    | eq => rfl
    | gt => exact absurd order up
    | lt => exact absurd (Std.OrientedCmp.gt_of_lt order) down
  exact (Std.compare_eq_iff_eq.mp le).symm

/-- The role begun last is the one that the row read last belongs to. -/
theorem head?_foldl_collect (rows : List RoleRow) :
    (rows.foldl RoleRow.collect []).head?.map Role.id = rows.getLast?.map RoleRow.role := by
  induction rows using List.reverseRecOn with
  | nil => rfl
  | append_singleton rows row _ =>
    rw [List.foldl_concat, List.getLast?_concat]
    cases rows.foldl RoleRow.collect [] with
    | nil => rfl
    | cons last earlier =>
      by_cases same : last.id = row.role <;> simp [RoleRow.collect, RoleRow.extend, same]

theorem Regroups.mem_ids (regroups : Regroups rows roles) {role : Role} (member : role ∈ roles) :
    ∃ row ∈ rows, row.role = role.id := by
  obtain ⟨row, stored, same, _⟩ := regroups.named role member
  exact ⟨row, stored, same⟩

theorem Regroups.distinct (regroups : Regroups rows roles) : (roles.map Role.id).Nodup := by
  rw [regroups.ids]
  exact nodup_eraseDups _

theorem Regroups.extend {earlier : List Role} {last : Role} (regroups : Regroups rows (earlier ++ [last]))
    (own : last.id = row.role) : Regroups (rows ++ [row]) (earlier ++ [row.extend last]) := by
  have apart : ∀ role ∈ earlier, role.id ≠ row.role := by
    have distinct := regroups.distinct
    rw [List.map_append, List.map_singleton, List.nodup_append] at distinct
    exact fun role member same => distinct.2.2 _ (List.mem_map_of_mem member) _ (List.mem_singleton_self _)
      (same.trans own.symm)
  have known : row.role ∈ rows.map RoleRow.role := by
    obtain ⟨stored, member, same⟩ := regroups.mem_ids (List.mem_append_right _ (List.mem_singleton_self last))
    exact List.mem_map.mpr ⟨stored, member, same.trans own⟩
  refine ⟨?_, fun role member => ?_, fun role member => ?_⟩
  · have read : (rows ++ [row]).map RoleRow.role = rows.map RoleRow.role ++ [row.role] := List.map_append
    rw [read, eraseDups_concat, if_pos known, ← regroups.ids]
    simp [RoleRow.extend]
  · obtain ⟨begun, listed, sameId, sameName⟩ :
        ∃ begun ∈ earlier ++ [last], begun.id = role.id ∧ begun.name = role.name := by
      rcases List.mem_append.mp member with before | latest
      · exact ⟨role, List.mem_append_left _ before, rfl, rfl⟩
      · rw [List.mem_singleton.mp latest]
        exact ⟨last, by simp, rfl, rfl⟩
    obtain ⟨stored, read, id, name⟩ := regroups.named begun listed
    exact ⟨stored, List.mem_append_left _ read, id.trans sameId, name.trans sameName⟩
  · rw [permissionsIn_concat]
    rcases List.mem_append.mp member with before | latest
    · rw [if_neg (apart role before).symm, List.append_nil]
      exact regroups.permissions role (List.mem_append_left _ before)
    · have stored := regroups.permissions last (by simp)
      rw [List.mem_singleton.mp latest, RoleRow.extend, if_pos own.symm, ← stored]

theorem Regroups.begin (regroups : Regroups rows roles) (new : ∀ earlier ∈ rows, earlier.role ≠ row.role) :
    Regroups (rows ++ [row]) (roles ++ [row.extend ⟨row.role, row.name, []⟩]) := by
  have unknown : row.role ∉ rows.map RoleRow.role := by simpa using new
  refine ⟨?_, fun role member => ?_, fun role member => ?_⟩
  · rw [List.map_append, List.map_append, List.map_singleton, List.map_singleton, eraseDups_concat, if_neg unknown,
      regroups.ids]
    rfl
  · rcases List.mem_append.mp member with before | latest
    · obtain ⟨stored, read, same⟩ := regroups.named role before
      exact ⟨stored, List.mem_append_left _ read, same⟩
    · rw [List.mem_singleton.mp latest]
      exact ⟨row, by simp, rfl, rfl⟩
  · rw [permissionsIn_concat]
    rcases List.mem_append.mp member with before | latest
    · obtain ⟨stored, read, same⟩ := regroups.mem_ids before
      rw [if_neg fun own => new stored read (same.trans own.symm), List.append_nil]
      exact regroups.permissions role before
    · rw [List.mem_singleton.mp latest, RoleRow.extend]
      simp [permissionsIn_eq_nil new]

/-- Reading one more row keeps what has been put together in accord with the rows. -/
theorem Regroups.collect (regroups : Regroups rows (rows.foldl RoleRow.collect []).reverse)
    (together : Together (rows ++ [row])) :
    Regroups (rows ++ [row]) (RoleRow.collect (rows.foldl RoleRow.collect []) row).reverse := by
  have latest := head?_foldl_collect rows
  cases begun : rows.foldl RoleRow.collect [] with
  | nil =>
    rw [begun] at regroups latest
    have nothing : rows = [] := by simpa [eq_comm] using latest
    subst nothing
    exact regroups.begin (by simp)
  | cons last earlier =>
    rw [begun] at regroups latest
    rw [List.reverse_cons] at regroups
    by_cases own : last.id = row.role
    · rw [RoleRow.collect, if_pos own, List.reverse_cons]
      exact regroups.extend own
    · have apart : ∀ before ∈ rows.getLast?, before.role ≠ row.role := by
        intro before member same
        rw [Option.mem_def.mp member] at latest
        have sameId : last.id = before.role := by simpa using latest
        exact own (sameId.trans same)
      rw [RoleRow.collect, if_neg own, List.reverse_cons, List.reverse_cons]
      exact regroups.begin (together.new apart)

theorem regroups_collectRoles (together : Together rows) : Regroups rows (collectRoles rows) := by
  induction rows using List.reverseRecOn with
  | nil => exact ⟨rfl, by simp [collectRoles], by simp [collectRoles]⟩
  | append_singleton rows row ih =>
    rw [collectRoles, List.foldl_concat]
    exact (ih together.of_concat).collect together

theorem Regroups.name_eq (regroups : Regroups rows roles) (agree : NamesAgree rows) {role : Role}
    (member : role ∈ roles) (stored : row ∈ rows) (own : row.role = role.id) : row.name = role.name := by
  obtain ⟨other, read, same, name⟩ := regroups.named role member
  exact (agree row stored other read (own.trans same.symm)).trans name

theorem Regroups.unique (regroups : Regroups rows roles) (other : Regroups rows others) (agree : NamesAgree rows) :
    roles = others := by
  have ids : roles.map Role.id = others.map Role.id := regroups.ids.trans other.ids.symm
  have length : roles.length = others.length := by simpa using congrArg List.length ids
  refine List.ext_getElem length fun i here there => ?_
  have left : roles[i] ∈ roles := List.getElem_mem here
  have right : others[i] ∈ others := List.getElem_mem there
  have id : roles[i].id = others[i].id := by
    have sameAt := congrArg (fun ids : List RoleId => ids[i]?) ids
    simpa [List.getElem?_map, here, there] using sameAt
  have name : roles[i].name = others[i].name := by
    obtain ⟨stored, read, own, name⟩ := regroups.named _ left
    exact name.symm.trans (other.name_eq agree right read (own.trans id))
  have permissions : roles[i].permissions = others[i].permissions := by
    rw [regroups.permissions _ left, other.permissions _ right, id]
  exact Role.ext id name permissions

theorem collectRoles_eq_iff (together : Together rows) (agree : NamesAgree rows) :
    collectRoles rows = roles ↔ Regroups rows roles := by
  have regroups := regroups_collectRoles together
  constructor
  · rintro rfl
    exact regroups
  · exact fun other => regroups.unique other agree

/-- A role whose rows name no permission comes out with none. -/
theorem Regroups.mem_of_empty (regroups : Regroups rows roles) (agree : NamesAgree rows) (read : row ∈ rows)
    (empty : ∀ other ∈ rows, other.role = row.role → other.permission = none) : ⟨row.role, row.name, []⟩ ∈ roles := by
  have listed : row.role ∈ roles.map Role.id := by
    rw [regroups.ids, List.mem_eraseDups]
    exact List.mem_map_of_mem read
  obtain ⟨role, member, own⟩ := List.mem_map.mp listed
  have nothing : role.permissions = [] := by
    rw [regroups.permissions role member, own, permissionsIn, List.filterMap_eq_nil_iff]
    intro other kept
    obtain ⟨stored, same⟩ := List.mem_filter.mp kept
    exact empty other stored (of_decide_eq_true same)
  have same : role = ⟨row.role, row.name, []⟩ :=
    Role.ext own (regroups.name_eq agree member read own.symm).symm nothing
  exact same ▸ member

end

/-- Rows that stand together by roles and agree on their names come to the one list of roles that they stand for, where
a role without permissions has its place too. Rows in the order of their roles stand together, and roles with ids of
their own come back from their rows. -/
theorem rows_regrouped :
    (∀ rows, Together rows → NamesAgree rows →
      (∀ roles, collectRoles rows = roles ↔ Regroups rows roles) ∧
      ∀ row ∈ rows, (∀ other ∈ rows, other.role = row.role → other.permission = none) →
        ⟨row.role, row.name, []⟩ ∈ collectRoles rows) ∧
    (∀ rows : List RoleRow, (rows.Pairwise fun row later => compare row.role later.role ≠ .gt) → Together rows) ∧
    ∀ roles : List Role, (roles.map Role.id).Nodup → collectRoles (roles.flatMap RoleRow.ofRole) = roles := by
  refine ⟨fun rows together agree => ⟨fun roles => collectRoles_eq_iff together agree, fun row => ?_⟩,
    fun rows => Together.of_ordered, fun roles => collectRoles_flatMap⟩
  exact (regroups_collectRoles together).mem_of_empty agree

/-- Two roles without permissions, one after the other, and roles with one and with two. -/
def staffRoles : List Role :=
  [⟨"guest", "Guest", []⟩, ⟨"intern", "Intern", []⟩, ⟨"reader", "Reader", ["read"]⟩,
    ⟨"writer", "Writer", ["edit", "read"]⟩]

def staffRows : List RoleRow :=
  [⟨"guest", "Guest", none⟩, ⟨"intern", "Intern", none⟩, ⟨"reader", "Reader", some "read"⟩,
    ⟨"writer", "Writer", some "edit"⟩, ⟨"writer", "Writer", some "read"⟩]

theorem staff_regrouped :
    Together staffRows ∧ NamesAgree staffRows ∧ Regroups staffRows staffRoles ∧
      ⟨"intern", "Intern", []⟩ ∈ collectRoles staffRows ∧
      staffRoles.flatMap RoleRow.ofRole = staffRows ∧ collectRoles (staffRoles.flatMap RoleRow.ofRole) = staffRoles := by
  obtain ⟨regrouped, ordered, restored⟩ := rows_regrouped
  have together : Together staffRows := ordered staffRows (by decide +kernel)
  have agree : NamesAgree staffRows := by unfold NamesAgree; decide +kernel
  obtain ⟨exact, empty⟩ := regrouped staffRows together agree
  exact ⟨together, agree, (exact staffRoles).mp (by decide +kernel),
    empty ⟨"intern", "Intern", none⟩ (by decide) (by decide), by decide, restored staffRoles (by decide)⟩

namespace Database

theorem mem_joinRoles {tables : Database} {ids : List RoleId} {row : RoleRow} (member : row ∈ tables.joinRoles ids) :
    row.role ∈ ids ∧ tables.roles[row.role]? = some row.name := by
  obtain ⟨id, listed, joined⟩ := List.mem_flatMap.mp member
  split at joined
  case h_1 name found =>
    have own : row.role = id ∧ row.name = name := by
      unfold RoleRow.ofRole at joined
      split at joined
      · rw [List.mem_singleton.mp joined]
        exact ⟨rfl, rfl⟩
      · obtain ⟨_, _, rfl⟩ := List.mem_map.mp joined
        exact ⟨rfl, rfl⟩
    rw [own.1, own.2]
    exact ⟨listed, found⟩
  case h_2 => simp at joined

theorem namesAgree_joinRoles (tables : Database) (ids : List RoleId) : NamesAgree (tables.joinRoles ids) := by
  intro row member other listed same
  have name := (mem_joinRoles member).2
  rw [same, (mem_joinRoles listed).2] at name
  exact (Option.some.inj name).symm

/-- Rows that are joined in ascending order of ids stand together. -/
theorem together_joinRoles (tables : Database) {ids : List RoleId} (ascending : Ascending ids) :
    Together (tables.joinRoles ids) := by
  have joined : tables.joinRoles ids = ids.flatMap fun id => tables.joinRoles [id] := by
    simp only [joinRoles, List.flatMap_singleton]
  have own : ∀ id, ∀ row ∈ tables.joinRoles [id], row.role = id := fun id row member => by
    simpa using (mem_joinRoles member).1
  rw [joined]
  refine Together.of_ordered (List.pairwise_flatMap.mpr ⟨fun id _ => ?_, ascending.imp fun less => ?_⟩)
  · refine List.pairwise_of_forall_mem_list fun row member later listed => ?_
    simp [own id row member, own id later listed]
  · intro row member later listed
    rw [own _ row member, own _ later listed, less]
    simp

/-- What is loaded with a user is just the roles that the rows of the user's roles stand for. -/
theorem rolesOfUser_eq_iff (tables : Database) (user : UserId) (roles : List Role) :
    tables.rolesOfUser user = roles ↔ Regroups
      (tables.joinRoles ((tables.userRoles.toList.filter fun row => row.user = user).map UserRole.role)) roles :=
  collectRoles_eq_iff (together_joinRoles tables (second_column_ascending fun _ => rfl)) (namesAgree_joinRoles tables _)

theorem rolesOfTeam_eq_iff (tables : Database) (team : TeamId) (roles : List Role) :
    tables.rolesOfTeam team = roles ↔ Regroups
      (tables.joinRoles ((tables.teamRoles.toList.filter fun row => row.team = team).map TeamRole.role)) roles :=
  collectRoles_eq_iff (together_joinRoles tables (second_column_ascending fun _ => rfl)) (namesAgree_joinRoles tables _)

end Database

end AccessControl
