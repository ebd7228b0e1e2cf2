import AccessControl.Proofs.Json.RoundTrip

namespace AccessControl.Json

section

variable {name key : String} {value : Json} {members others : List (String × Json)}

theorem foldl_lastNamed (members : List (String × Json)) (found : Option Json) :
    members.foldl (fun found member => if member.1 = name then some member.2 else found) found =
      (lastNamed name members).or found := by
  unfold lastNamed
  induction members generalizing found with
  | nil => rfl
  | cons first rest ih =>
    rw [List.foldl_cons, ih, List.foldl_cons, ih (if first.1 = name then some first.2 else none)]
    cases rest.foldl (fun found member => if member.1 = name then some member.2 else found) none with
    | some later => rfl
    | none => split <;> rfl

theorem lastNamed_cons (key : String) (value : Json) (rest : List (String × Json)) :
    lastNamed name ((key, value) :: rest) = (lastNamed name rest).or (if key = name then some value else none) := by
  rw [lastNamed, List.foldl_cons, foldl_lastNamed]

theorem lastNamed_eq_none_iff : lastNamed name members = none ↔ name ∉ members.map Prod.fst := by
  induction members with
  | nil => simp [lastNamed]
  | cons first rest ih =>
    rw [lastNamed_cons, Option.or_eq_none_iff, ih, List.map_cons, List.mem_cons, not_or, and_comm]
    refine and_congr_left fun _ => ?_
    by_cases same : first.1 = name
    · simp [same]
    · simp [same, Ne.symm same]

/-- Where no name is given twice there is nothing to choose. -/
theorem lastNamed_eq_some_iff (distinct : (members.map Prod.fst).Nodup) :
    lastNamed name members = some value ↔ (name, value) ∈ members := by
  induction members with
  | nil => simp [lastNamed]
  | cons first rest ih =>
    obtain ⟨fresh, distinct⟩ := List.nodup_cons.mp distinct
    rw [lastNamed_cons, List.mem_cons, ← ih distinct]
    by_cases same : first.1 = name
    · subst same
      rw [lastNamed_eq_none_iff.mpr fresh]
      simp [Prod.ext_iff, eq_comm]
    · rw [if_neg same, Option.or_none]
      exact ⟨.inr, fun found => found.resolve_left fun first => same (congrArg Prod.fst first).symm⟩

theorem lastNamed_filter {known : String → Bool} (asked : known name = true) (members : List (String × Json)) :
    lastNamed name (members.filter fun member => known member.1) = lastNamed name members := by
  induction members with
  | nil => rfl
  | cons first rest ih =>
    rw [lastNamed_cons, List.filter_cons]
    by_cases kept : known first.1 = true
    · rw [if_pos kept, lastNamed_cons, ih]
    · have other : first.1 ≠ name := fun same => kept (same ▸ asked)
      rw [if_neg kept, ih, if_neg other, Option.or_none]

theorem lastNamed_perm (reordered : others.Perm members) (distinct : (members.map Prod.fst).Nodup) :
    lastNamed name others = lastNamed name members := by
  have stillDistinct : (others.map Prod.fst).Nodup := (reordered.map Prod.fst).nodup_iff.mpr distinct
  refine Option.ext fun value => ?_
  rw [lastNamed_eq_some_iff stillDistinct, lastNamed_eq_some_iff distinct, reordered.mem_iff]

end

namespace RecordReader

variable {reader : RecordReader α} {members others : List (String × Json)} {names : List String} {name : String}
  {read? : Json → Option α} {json : Json} {value default : α}

theorem run_next (name : String) (members : List (String × Json)) :
    StateT.run (next name) (.named members) = some ((lastNamed name members, true), .named members) :=
  rfl

theorem run_required (name : String) (read? : Json → Option α) (members : List (String × Json)) :
    StateT.run (required name read?) (.named members) =
      ((lastNamed name members).bind read?).map fun value => (value, .named members) := by
  rw [required, StateT.run_bind, run_next]
  cases lastNamed name members with
  | none => rfl
  | some json => exact Option.map_eq_bind.symm

theorem run_withDefault (name : String) (read? : Json → Option α) (default : α) (members : List (String × Json)) :
    StateT.run (withDefault name read? default) (.named members) =
      ((lastNamed name members).elim (some default) read?).map fun value => (value, .named members) := by
  rw [withDefault, StateT.run_bind, run_next]
  cases lastNamed name members with
  | none => rfl
  | some json => exact Option.map_eq_bind.symm

theorem run_optional (name : String) (read? : Json → Option α) (members : List (String × Json)) :
    StateT.run (optional name read?) (.named members) =
      ((lastNamed name members).elim (some none) (nullable? read?)).map fun value => (value, .named members) := by
  rw [optional, StateT.run_bind, run_next]
  cases lastNamed name members with
  | none => rfl
  | some json => exact Option.map_eq_bind.symm

/-- The reader makes the value of these members, and leaves them for what is read next. -/
def Makes (reader : RecordReader α) (members : List (String × Json)) (value : α) : Prop :=
  StateT.run reader (.named members) = some (value, .named members)

theorem Makes.run? (makes : reader.Makes members value) : reader.run? (.object members) = some value := by
  rw [RecordReader.run?, makes]
  rfl

theorem makes_pure (value : α) (members : List (String × Json)) : Makes (pure value) members value :=
  rfl

theorem Makes.bind {next : α → RecordReader β} {result : β} (first : reader.Makes members value)
    (second : (next value).Makes members result) : Makes (reader >>= next) members result := by
  rw [Makes, StateT.run_bind, first]
  exact second

theorem makes_required (found : lastNamed name members = some json) (read : read? json = some value) :
    (required name read?).Makes members value := by
  rw [Makes, run_required, found, Option.bind_some, read, Option.map_some]

theorem makes_withDefault (found : lastNamed name members = some json) (read : read? json = some value) :
    (withDefault name read? default).Makes members value := by
  rw [Makes, run_withDefault, found, Option.elim_some, read, Option.map_some]

theorem makes_default (absent : lastNamed name members = none) :
    (withDefault name read? default).Makes members default := by
  rw [Makes, run_withDefault, absent, Option.elim_none, Option.map_some]

theorem makes_optional {found : Option α} (given : lastNamed name members = some json)
    (read : nullable? read? json = some found) : (optional name read?).Makes members found := by
  rw [Makes, run_optional, given, Option.elim_some, read, Option.map_some]

/-- What the reader makes of an object depends only on the fields of these names. -/
def LooksUp (names : List String) (reader : RecordReader α) : Prop :=
  ∀ members others, (∀ name ∈ names, lastNamed name members = lastNamed name others) →
    ∃ outcome : Option α, StateT.run reader (.named members) = outcome.map (fun value => (value, .named members)) ∧
      StateT.run reader (.named others) = outcome.map fun value => (value, .named others)

theorem LooksUp.run?_eq (looksUp : LooksUp names reader)
    (same : ∀ name ∈ names, lastNamed name members = lastNamed name others) :
    reader.run? (.object members) = reader.run? (.object others) := by
  obtain ⟨outcome, run, otherRun⟩ := looksUp members others same
  rw [RecordReader.run?, RecordReader.run?, run, otherRun]
  cases outcome <;> rfl

theorem looksUp_pure (value : α) : LooksUp names (pure value) :=
  fun _ _ _ => ⟨some value, rfl, rfl⟩

theorem LooksUp.bind {next : α → RecordReader β} (first : LooksUp names reader)
    (second : ∀ value, LooksUp names (next value)) : LooksUp names (reader >>= next) := by
  intro members others same
  obtain ⟨outcome, run, otherRun⟩ := first members others same
  rw [StateT.run_bind, StateT.run_bind, run, otherRun]
  cases outcome with
  | none => exact ⟨none, rfl, rfl⟩
  | some value => exact second value members others same

theorem LooksUp.of_run (known : name ∈ names) (compute : Option Json → Option α)
    (run : ∀ members, StateT.run reader (.named members) =
      (compute (lastNamed name members)).map fun value => (value, .named members)) : LooksUp names reader := by
  intro members others same
  refine ⟨compute (lastNamed name members), run members, ?_⟩
  rw [run others, same name known]

theorem looksUp_required (known : name ∈ names) : LooksUp names (required name read?) :=
  .of_run known (fun found => found.bind read?) (run_required name read?)

theorem looksUp_withDefault (known : name ∈ names) : LooksUp names (withDefault name read? default) :=
  .of_run known (fun found => found.elim (some default) read?) (run_withDefault name read? default)

theorem looksUp_optional (known : name ∈ names) : LooksUp names (optional name read?) :=
  .of_run known (fun found => found.elim (some none) (nullable? read?)) (run_optional name read?)

end RecordReader

end AccessControl.Json
