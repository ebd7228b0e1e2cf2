import Mathlib.Data.List.Sort
import AccessControl.Store.Database.Queries

namespace AccessControl

open Std

theorem eq_of_ascending_by [Ord κ] [OrientedOrd κ] (key : α → κ) {left right : List α}
    (leftOrder : left.Pairwise fun a b => compare (key a) (key b) = .lt)
    (rightOrder : right.Pairwise fun a b => compare (key a) (key b) = .lt) (same : ∀ a, a ∈ left ↔ a ∈ right) :
    left = right := by
  have antisymm : Std.Antisymm fun a b : α => compare (key a) (key b) = .lt :=
    ⟨fun a b less more => by simp [OrientedCmp.gt_of_lt less] at more⟩
  have irrefl : Std.Irrefl fun a b : α => compare (key a) (key b) = .lt :=
    ⟨fun a less => by simp [ReflCmp.compare_self] at less⟩
  exact leftOrder.eq_of_mem_iff rightOrder same

theorem eq_of_ascending [Ord α] [OrientedOrd α] {left right : List α}
    (leftOrder : left.Pairwise fun a b => compare a b = .lt) (rightOrder : right.Pairwise fun a b => compare a b = .lt)
    (same : ∀ a, a ∈ left ↔ a ∈ right) : left = right :=
  eq_of_ascending_by id leftOrder rightOrder same

/-- In ascending order, and so each once. -/
abbrev Ascending (ids : List String) : Prop :=
  ids.Pairwise fun a b => compare a b = .lt

/-- What is found by the ids of a set, each under its own, is in the order of the ids. -/
theorem ascending_filterMap {find : String → Option α} {idOf : α → String}
    (own : ∀ id value, find id = some value → idOf value = id) (ids : ExtTreeSet String) :
    Ascending ((ids.toList.filterMap find).map idOf) := by
  rw [Ascending, List.pairwise_map, List.pairwise_filterMap]
  refine ExtTreeSet.ordered_toList.imp fun {first second} less => ?_
  intro left foundLeft right foundRight
  rwa [own first left foundLeft, own second right foundRight]

theorem nodup_filterMap {find : String → Option α} {idOf : α → String}
    (own : ∀ id value, find id = some value → idOf value = id) (ids : ExtTreeSet String) :
    ((ids.toList.filterMap find).map idOf).Nodup := by
  refine (ascending_filterMap own ids).imp fun less same => ?_
  simp [same] at less

theorem ascending_keys (map : ExtTreeMap String α) (select : String × α → Bool) :
    Ascending ((map.toList.filter select).map Prod.fst) := by
  rw [Ascending, List.pairwise_map]
  exact ExtTreeMap.ordered_keys_toList.filter _

theorem values_eq_map_snd [Ord α] [TransOrd α] (map : ExtTreeMap α β) : map.values = map.toList.map Prod.snd := by
  obtain ⟨⟨quotient⟩⟩ := map
  induction quotient using Quotient.ind with
  | _ tree =>
    have whole : tree.inner.values = (DTreeMap.Internal.Impl.Const.toList tree.inner).map Prod.snd := by
      rw [DTreeMap.Internal.Impl.values_eq_map_snd, DTreeMap.Internal.Impl.Const.toList_eq_toListModel_map,
        List.map_map]
      rfl
    exact whole

theorem nodup_rows [Ord α] [TransOrd α] (rows : ExtTreeSet α) : rows.toList.Nodup := by
  refine rows.distinct_toList.imp fun apart same => apart ?_
  rw [same]
  exact ReflCmp.compare_self

theorem nodup_keys [Ord α] [TransOrd α] (rows : ExtTreeMap α β) : (rows.toList.map Prod.fst).Nodup := by
  refine List.pairwise_map.mpr (rows.distinct_keys_toList.imp fun apart same => apart ?_)
  rw [same]
  exact ReflCmp.compare_self

section

variable [Ord κ] [TransOrd κ] [LawfulEqOrd κ] [DecidableEq κ] {map : ExtTreeMap κ α} {key : κ}

/-- What is done to all entries and leaves the others as they were is done by writing over one. -/
theorem map_eq_insert {stored : α} (present : map[key]? = some stored) {update : κ → α → α}
    (others : ∀ id value, id ≠ key → update id value = value) : map.map update = map.insert key (update key stored) := by
  refine ExtTreeMap.ext_getElem? fun id => ?_
  simp only [ExtTreeMap.getElem?_insert, ExtTreeMap.getElem?_map, Std.compare_eq_iff_eq]
  by_cases same : key = id
  · subst same
    simp [present]
  · have kept : update id = fun value => value := funext fun value => others id value (Ne.symm same)
    simp [same, kept]

/-- An entry that is written over stays in its place. -/
theorem insert_eq_map {stored : α} (present : map[key]? = some stored) (update : α → α) :
    map.insert key (update stored) = map.map fun id value => if id = key then update value else value := by
  rw [map_eq_insert present fun id value other => if_neg other, if_pos rfl]

theorem erase_eq_filter (map : ExtTreeMap κ α) (key : κ) : map.erase key = map.filter fun id _ => id ≠ key := by
  refine ExtTreeMap.ext_getElem? fun id => ?_
  rw [ExtTreeMap.getElem?_erase, ExtTreeMap.getElem?_filter']
  by_cases same : key = id
  · simp [same]
  · cases map[id]? <;> simp [Option.filter, same, Ne.symm same]

end

section

variable [Row ρ] {table : ExtTreeSet ρ} {first second : ρ → String} {fixed : String}

theorem column_ascending {select : ρ → Bool} {column : ρ → String}
    (ordered : ∀ left right : ρ, select left = true → select right = true → compare left right = .lt →
      compare (column left) (column right) = .lt) :
    Ascending ((table.toList.filter select).map column) := by
  rw [Ascending, List.pairwise_map]
  refine (ExtTreeSet.ordered_toList.filter select).imp_of_mem fun left right less => ?_
  exact ordered _ _ (List.mem_filter.mp left).2 (List.mem_filter.mp right).2 less

/-- Of rows of two columns that agree in the second, the first gives the order. -/
theorem first_column_ascending (columns : ∀ row, Row.columns row = [first row, second row]) :
    Ascending ((table.toList.filter fun row => second row = fixed).map first) := by
  refine column_ascending fun left right sameLeft sameRight less => ?_
  have sameLeft : second left = fixed := by simpa using sameLeft
  have sameRight : second right = fixed := by simpa using sameRight
  have less : compare (Row.columns left) (Row.columns right) = .lt := less
  rw [columns, columns, sameLeft, sameRight] at less
  simpa [List.compare_cons_cons, ReflCmp.compare_self] using less

theorem second_column_ascending (columns : ∀ row, Row.columns row = [first row, second row]) :
    Ascending ((table.toList.filter fun row => first row = fixed).map second) := by
  refine column_ascending fun left right sameLeft sameRight less => ?_
  have sameLeft : first left = fixed := by simpa using sameLeft
  have sameRight : first right = fixed := by simpa using sameRight
  have less : compare (Row.columns left) (Row.columns right) = .lt := less
  rw [columns, columns, sameLeft, sameRight] at less
  simpa [List.compare_cons_cons, ReflCmp.compare_self] using less

theorem mem_column {select : ρ → Bool} {column : ρ → String} {value : String} :
    value ∈ (table.toList.filter select).map column ↔ ∃ row ∈ table, select row = true ∧ column row = value := by
  simp only [List.mem_map, List.mem_filter, ExtTreeSet.mem_toList, and_assoc]

/-- The second column of the rows of one first column is a set of ids in ascending order. -/
theorem second_column_eq_toList {ids : ExtTreeSet String} (make : String → String → ρ)
    (columns : ∀ row, Row.columns row = [first row, second row]) (made : ∀ row, make (first row) (second row) = row)
    (fields : ∀ id value, first (make id value) = id ∧ second (make id value) = value)
    (same : ∀ id, make fixed id ∈ table ↔ id ∈ ids) :
    (table.toList.filter fun row => first row = fixed).map second = ids.toList := by
  refine eq_of_ascending (second_column_ascending columns) ExtTreeSet.ordered_toList fun id => ?_
  rw [mem_column, ExtTreeSet.mem_toList, ← same]
  constructor
  · intro listed
    obtain ⟨row, stored, selected, rfl⟩ := listed
    have owner : first row = fixed := by simpa using selected
    rwa [← owner, made]
  · intro stored
    obtain ⟨owner, value⟩ := fields fixed id
    exact ⟨make fixed id, stored, by simp [owner], value⟩

end

namespace RoleRow

variable {role : Role} {earlier : List Role}

/-- More rows of the role begun last add their permissions to it. -/
theorem foldl_collect_extend (role : Role) (name : String) (permissions : List PermissionId) :
    (permissions.map fun permission => ⟨role.id, name, some permission⟩).foldl collect (role :: earlier) =
      { role with permissions := role.permissions ++ permissions } :: earlier := by
  induction permissions generalizing role with
  | nil => simp
  | cons permission rest ih =>
    have extended : collect (role :: earlier) ⟨role.id, name, some permission⟩ =
        { role with permissions := role.permissions ++ [permission] } :: earlier := by
      simp [collect, extend]
    have later := ih { role with permissions := role.permissions ++ [permission] }
    rw [List.map_cons, List.foldl_cons, extended, later]
    simp

theorem collect_begin (row : RoleRow) (begins : ∀ last ∈ earlier.head?, last.id ≠ row.role) :
    collect earlier row = row.extend ⟨row.role, row.name, []⟩ :: earlier := by
  cases earlier with
  | nil => rfl
  | cons last before => simp [collect, begins last rfl]

theorem foldl_collect_ofRole (begins : ∀ last ∈ earlier.head?, last.id ≠ role.id) :
    (ofRole role).foldl collect earlier = role :: earlier := by
  obtain ⟨id, name, permissions⟩ := role
  cases permissions with
  | nil =>
    rw [ofRole, List.foldl_cons, collect_begin _ begins]
    rfl
  | cons permission rest =>
    have rows : ofRole ⟨id, name, permission :: rest⟩ =
        ⟨id, name, some permission⟩ :: rest.map fun permission => ⟨id, name, some permission⟩ := rfl
    rw [rows, List.foldl_cons, collect_begin _ begins]
    exact foldl_collect_extend ⟨id, name, [permission]⟩ name rest

theorem foldl_collect_flatMap (roles : List Role)
    (distinct : (roles.map Role.id).Nodup) (begins : ∀ last ∈ earlier.head?, last.id ∉ roles.map Role.id) :
    (roles.flatMap ofRole).foldl collect earlier = roles.reverse ++ earlier := by
  induction roles generalizing earlier with
  | nil => rfl
  | cons role rest ih =>
    obtain ⟨apart, distinct⟩ := List.nodup_cons.mp distinct
    have first : (ofRole role).foldl collect earlier = role :: earlier := by
      refine foldl_collect_ofRole fun last member same => begins last member ?_
      simp [same]
    have begins : ∀ last ∈ (role :: earlier).head?, last.id ∉ rest.map Role.id := by simpa using apart
    rw [List.flatMap_cons, List.foldl_append, first, ih distinct begins]
    simp

end RoleRow

theorem collectRoles_flatMap {roles : List Role} (distinct : (roles.map Role.id).Nodup) :
    collectRoles (roles.flatMap RoleRow.ofRole) = roles := by
  rw [collectRoles, RoleRow.foldl_collect_flatMap roles distinct (by simp)]
  simp

end AccessControl
