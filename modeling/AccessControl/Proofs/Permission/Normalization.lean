import AccessControl.Permission.Normal
import Mathlib.Data.List.Induction
import Mathlib.Data.List.Nodup
import Mathlib.Logic.Relation

namespace AccessControl

namespace Text

/-- Only white space stands around `middle` in `text`, and none stands at the ends of `middle`. -/
structure TrimsTo (text middle : String) : Prop where
  padded : ∃ left right, isBlank left = true ∧ isBlank right = true ∧ text = left ++ middle ++ right
  trimmed : Trimmed middle

theorem trim_append_of_blank {left : String} (blank : isBlank left = true) (text : String) :
    trim (left ++ text) = trim text := by
  rw [trim, trim, String.toList_append, trimChars, trimChars,
    List.dropWhile_append_of_pos (List.all_eq_true.mp blank)]

theorem trim_append_blank {right : String} (blank : isBlank right = true) (text : String) :
    trim (text ++ right) = trim text := by
  have spaces : ∀ c ∈ right.toList, isSpace c = true := List.all_eq_true.mp blank
  have backSpaces : ∀ c ∈ right.toList.reverse, isSpace c = true := by simpa using spaces
  by_cases nothing : isBlank text = true
  · have together : isBlank (text ++ right) = true := by
      simp only [isBlank, String.toList_append, List.all_append, Bool.and_eq_true] at blank nothing ⊢
      exact ⟨nothing, blank⟩
    rw [isBlank_iff_trim_eq_empty.mp nothing, isBlank_iff_trim_eq_empty.mp together]
  · have begins : (text.toList.dropWhile isSpace).isEmpty = false := by
      rw [List.isEmpty_eq_false_iff]
      intro dropped
      refine nothing (isBlank_iff_trim_eq_empty.mpr ?_)
      rw [trim, trimChars, dropped]
      rfl
    rw [trim, trim, String.toList_append, trimChars, trimChars, List.dropWhile_append, begins,
      if_neg Bool.false_ne_true, List.reverse_append, List.dropWhile_append_of_pos backSpaces]

/-- A list of characters is its trimmed part with white space on both sides. -/
theorem exists_trimChars (chars : List Char) : ∃ left right : List Char, left.all isSpace = true ∧
    right.all isSpace = true ∧ chars = left ++ trimChars chars ++ right := by
  refine ⟨chars.takeWhile isSpace, ((chars.dropWhile isSpace).reverse.takeWhile isSpace).reverse,
    List.all_takeWhile, by rw [List.all_reverse, List.all_takeWhile], ?_⟩
  rw [trimChars, List.append_assoc, ← List.reverse_append, List.takeWhile_append_dropWhile, List.reverse_reverse,
    List.takeWhile_append_dropWhile]

theorem trim_eq_iff {text middle : String} : trim text = middle ↔ TrimsTo text middle := by
  constructor
  · rintro rfl
    obtain ⟨left, right, leftBlank, rightBlank, split⟩ := exists_trimChars text.toList
    refine ⟨⟨String.ofList left, String.ofList right, ?_, ?_, ?_⟩, trimmed_trim text⟩
    · rwa [isBlank, String.toList_ofList]
    · rwa [isBlank, String.toList_ofList]
    · rw [trim, ← String.ofList_append, ← String.ofList_append, ← split, String.ofList_toList]
  · rintro ⟨⟨left, right, leftBlank, rightBlank, rfl⟩, trimmed⟩
    rw [trim_append_blank rightBlank, trim_append_of_blank leftBlank, trimmed.trim_eq]

end Text

open Text

/-- One edge more is read, and kept unless it is blank or has been kept before. -/
def keepEdge (kept : List PermissionId) (edge : PermissionId) : List PermissionId :=
  if trim edge = "" ∨ trim edge ∈ kept then kept else kept ++ [trim edge]

theorem normalEdges_concat (edges : List PermissionId) (edge : PermissionId) :
    normalEdges (edges ++ [edge]) = keepEdge (normalEdges edges) edge := by
  by_cases empty : trim edge = ""
  · simp [normalEdges, keepEdge, empty]
  · have before : normalEdges (edges ++ [edge]) =
        (((edges.map trim).filter fun edge => !edge.isEmpty) ++ [trim edge]).eraseDups := by
      simp [normalEdges, empty]
    rw [before, eraseDups_concat, keepEdge]
    simp [normalEdges, empty]

/-- The normal form is what a single pass over the edges keeps. -/
theorem normalEdges_eq_foldl (edges : List PermissionId) : normalEdges edges = edges.foldl keepEdge [] := by
  induction edges using List.reverseRecOn with
  | nil => rfl
  | append_singleton edges edge ih => rw [normalEdges_concat, List.foldl_concat, ih]

/-- The place of the first edge that is `id` but for white space around it. -/
def firstPlace (edges : List PermissionId) (id : PermissionId) : Nat :=
  edges.findIdx fun edge => trim edge == id

/-- What is kept of a list of edges. -/
structure NormalForm (edges kept : List PermissionId) : Prop where
  distinct : kept.Nodup
  trimmed : ∀ id ∈ kept, id ≠ "" ∧ Trimmed id
  complete : ∀ id, id ∈ kept ↔ id ≠ "" ∧ ∃ edge ∈ edges, TrimsTo edge id
  ordered : kept.Pairwise fun earlier later => firstPlace edges earlier < firstPlace edges later

section NormalForm

variable {edges kept : List PermissionId}

theorem NormalForm.mem_iff (normal : NormalForm edges kept) {id : PermissionId} :
    id ∈ kept ↔ id ≠ "" ∧ ∃ edge ∈ edges, trim edge = id := by
  simp only [normal.complete, trim_eq_iff]

theorem firstPlace_lt {id : PermissionId} (present : ∃ edge ∈ edges, trim edge = id) :
    firstPlace edges id < edges.length :=
  List.findIdx_lt_length_of_exists (by simpa using present)

theorem firstPlace_append {id : PermissionId} (present : ∃ edge ∈ edges, trim edge = id) (more : List PermissionId) :
    firstPlace (edges ++ more) id = firstPlace edges id := by
  rw [firstPlace, List.findIdx_append]
  exact if_pos (firstPlace_lt present)

theorem length_le_firstPlace_append {id : PermissionId} (absent : ¬ ∃ edge ∈ edges, trim edge = id)
    (more : List PermissionId) : edges.length ≤ firstPlace (edges ++ more) id := by
  have nowhere : edges.findIdx (fun edge => trim edge == id) = edges.length :=
    List.findIdx_eq_length.mpr fun edge member => by simpa using fun same => absent ⟨edge, member, same⟩
  rw [firstPlace, List.findIdx_append, nowhere, if_neg (Nat.lt_irrefl _)]
  exact Nat.le_add_left _ _

theorem NormalForm.keepEdge (normal : NormalForm edges kept) (edge : PermissionId) :
    NormalForm (edges ++ [edge]) (keepEdge kept edge) := by
  have known : ∀ id ∈ kept, ∃ edge ∈ edges, trim edge = id := fun id member => (normal.mem_iff.mp member).2
  have ordered : kept.Pairwise fun earlier later =>
      firstPlace (edges ++ [edge]) earlier < firstPlace (edges ++ [edge]) later := by
    refine normal.ordered.imp_of_mem fun first second before => ?_
    rwa [firstPlace_append (known _ first), firstPlace_append (known _ second)]
  rw [AccessControl.keepEdge]
  split
  case isTrue nothing =>
    refine ⟨normal.distinct, normal.trimmed, fun id => ?_, ordered⟩
    simp only [← trim_eq_iff, normal.mem_iff, List.mem_append, List.mem_singleton, or_and_right, exists_or,
      exists_eq_left]
    refine and_congr_right fun present => ⟨.inl, ?_⟩
    rintro (earlier | rfl)
    · exact earlier
    · exact known _ (nothing.resolve_left present)
  case isFalse new =>
    obtain ⟨present, new⟩ := not_or.mp new
    have unseen : ¬ ∃ other ∈ edges, trim other = trim edge := fun seen => new (normal.mem_iff.mpr ⟨present, seen⟩)
    refine ⟨?_, ?_, fun id => ?_, ?_⟩
    · simpa using normal.distinct.concat new
    · intro id member
      rcases List.mem_append.mp member with old | added
      · exact normal.trimmed id old
      · rw [List.mem_singleton.mp added]
        exact ⟨present, trimmed_trim edge⟩
    · simp only [← trim_eq_iff, List.mem_append, List.mem_singleton, normal.mem_iff, or_and_right, exists_or,
        exists_eq_left]
      constructor
      · rintro (⟨nonempty, earlier⟩ | rfl)
        · exact ⟨nonempty, .inl earlier⟩
        · exact ⟨present, .inr rfl⟩
      · rintro ⟨nonempty, earlier | rfl⟩
        · exact .inl ⟨nonempty, earlier⟩
        · exact .inr rfl
    · refine List.pairwise_append.mpr ⟨ordered, List.pairwise_singleton _ _, fun id old added last => ?_⟩
      rw [List.mem_singleton.mp last, firstPlace_append (known id old)]
      exact Nat.lt_of_lt_of_le (firstPlace_lt (known id old)) (length_le_firstPlace_append unseen _)

theorem normalForm_normalEdges (edges : List PermissionId) : NormalForm edges (normalEdges edges) := by
  induction edges using List.reverseRecOn with
  | nil => exact ⟨List.nodup_nil, by simp [normalEdges], by simp [normalEdges], List.Pairwise.nil⟩
  | append_singleton edges edge ih =>
    rw [normalEdges_concat]
    exact ih.keepEdge edge

/-- There is one list at most that these properties hold of. -/
theorem NormalForm.unique {others : List PermissionId} (normal : NormalForm edges kept)
    (other : NormalForm edges others) : kept = others := by
  have same : kept.Perm others := by
    refine (List.perm_ext_iff_of_nodup normal.distinct other.distinct).mpr fun id => ?_
    rw [normal.complete, other.complete]
  exact same.eq_of_pairwise (fun _ _ _ _ less greater => absurd less (Nat.lt_asymm greater)) normal.ordered
    other.ordered

end NormalForm

/-- A list is written differently in a place where that is not to matter. -/
inductive EdgeEdit : List PermissionId → List PermissionId → Prop where
  | pad {left right : String} (before : List PermissionId) (edge : PermissionId) (after : List PermissionId)
      (blankLeft : isBlank left = true) (blankRight : isBlank right = true) :
      EdgeEdit (before ++ edge :: after) (before ++ (left ++ edge ++ right) :: after)
  | blank {edge : PermissionId} (before after : List PermissionId) (blank : isBlank edge = true) :
      EdgeEdit (before ++ after) (before ++ edge :: after)
  | again {earlier edge : PermissionId} (before after : List PermissionId) (member : earlier ∈ before)
      (same : trim earlier = trim edge) : EdgeEdit (before ++ after) (before ++ edge :: after)

theorem normalEdges_congr {edges others : List PermissionId} (same : others.map trim = edges.map trim) :
    normalEdges others = normalEdges edges := by
  rw [normalEdges, same, normalEdges]

/-- An edge that a pass does not keep where it stands can be left out, whatever follows it. -/
theorem normalEdges_append_cons {before : List PermissionId} {edge : PermissionId}
    (nothing : keepEdge (normalEdges before) edge = normalEdges before) (after : List PermissionId) :
    normalEdges (before ++ edge :: after) = normalEdges (before ++ after) := by
  rw [normalEdges_eq_foldl (before ++ edge :: after), normalEdges_eq_foldl (before ++ after), List.foldl_append,
    List.foldl_append, List.foldl_cons, ← normalEdges_eq_foldl before, nothing]

theorem EdgeEdit.normalEdges_eq {edges others : List PermissionId} (edit : EdgeEdit edges others) :
    normalEdges others = normalEdges edges := by
  cases edit with
  | pad before edge after blankLeft blankRight =>
    refine normalEdges_congr ?_
    simp only [List.map_append, List.map_cons, trim_append_blank blankRight, trim_append_of_blank blankLeft]
  | blank before after blank =>
    exact normalEdges_append_cons (if_pos (.inl (isBlank_iff_trim_eq_empty.mp blank))) after
  | @again earlier edge before after member same =>
    refine normalEdges_append_cons (if_pos ?_) after
    rw [mem_normalEdges, or_iff_not_imp_left]
    exact fun present => ⟨present, earlier, member, same⟩

theorem EdgeEdit.concat {edges others : List PermissionId} (edit : EdgeEdit edges others) (last : PermissionId) :
    EdgeEdit (edges ++ [last]) (others ++ [last]) := by
  cases edit with
  | pad before edge after blankLeft blankRight => simpa using pad before edge (after ++ [last]) blankLeft blankRight
  | blank before after blank => simpa using EdgeEdit.blank before (after ++ [last]) blank
  | again before after member same => simpa using again before (after ++ [last]) member same

theorem edits_concat {edges others : List PermissionId} (edits : Relation.EqvGen EdgeEdit edges others)
    (last : PermissionId) : Relation.EqvGen EdgeEdit (edges ++ [last]) (others ++ [last]) := by
  induction edits with
  | rel edges others edit => exact .rel _ _ (edit.concat last)
  | refl edges => exact .refl _
  | symm edges others _ ih => exact .symm _ _ ih
  | trans edges between others _ _ first second => exact .trans _ _ _ first second

/-- What is left out of a list in one step of the pass can be left out by an edit. -/
theorem edits_keepEdge (kept : List PermissionId) (edge : PermissionId) :
    Relation.EqvGen EdgeEdit (keepEdge kept edge) (kept ++ [edge]) := by
  have padded : EdgeEdit (kept ++ [trim edge]) (kept ++ [edge]) := by
    obtain ⟨left, right, blankLeft, blankRight, split⟩ := (trim_eq_iff.mp (Eq.refl (trim edge))).padded
    have pad := EdgeEdit.pad kept (trim edge) [] blankLeft blankRight
    rwa [← split] at pad
  rw [keepEdge]
  split
  case isTrue nothing =>
    have dropped : EdgeEdit (kept ++ []) (kept ++ [edge]) := by
      rcases nothing with empty | again
      · exact .blank kept [] (isBlank_iff_trim_eq_empty.mpr empty)
      · exact .again kept [] again (trim_trim edge)
    rw [List.append_nil] at dropped
    exact .rel _ _ dropped
  case isFalse => exact .rel _ _ padded

/-- Edits lead from what is kept of a list to the list. -/
theorem edits_normalEdges (edges : List PermissionId) : Relation.EqvGen EdgeEdit (normalEdges edges) edges := by
  induction edges using List.reverseRecOn with
  | nil => exact .refl _
  | append_singleton edges edge ih =>
    rw [normalEdges_concat]
    exact .trans _ _ _ (edits_keepEdge _ edge) (edits_concat ih edge)

theorem normalEdges_eq_iff {edges others : List PermissionId} :
    normalEdges edges = normalEdges others ↔ Relation.EqvGen EdgeEdit edges others := by
  constructor
  · intro same
    have back : Relation.EqvGen EdgeEdit edges (normalEdges others) := same ▸ .symm _ _ (edits_normalEdges edges)
    exact .trans _ _ _ back (edits_normalEdges others)
  · intro edits
    induction edits with
    | rel edges others edit => exact edit.normalEdges_eq.symm
    | refl edges => rfl
    | symm edges others _ ih => exact ih.symm
    | trans edges between others _ _ first second => exact first.trans second

/-- What normalization may change of a permission, and what it makes of it. -/
structure Permission.Normalizes (given normal : Permission) : Prop where
  id : TrimsTo given.id normal.id
  dependsOn : NormalForm given.dependsOn normal.dependsOn
  implies : NormalForm given.implies normal.implies
  others : { normal with id := given.id, dependsOn := given.dependsOn, implies := given.implies } = given

theorem Permission.normalizes_normalize (permission : Permission) : permission.Normalizes permission.normalize where
  id := trim_eq_iff.mp rfl
  dependsOn := normalForm_normalEdges permission.dependsOn
  implies := normalForm_normalEdges permission.implies
  others := rfl

/-- The normal form of a list is the one list of its trimmed edges without blanks and repetitions, in the order of first
occurrence. It is shared by just those lists that edits which do not matter lead to, and taking it once is enough. -/
theorem normalization_canonical :
    (∀ edges kept, normalEdges edges = kept ↔ NormalForm edges kept) ∧
    (∀ edges, normalEdges (edges.map trim) = normalEdges edges) ∧
    (∀ edges others, normalEdges edges = normalEdges others ↔ Relation.EqvGen EdgeEdit edges others) ∧
    ∀ permission : Permission, permission.Normalizes permission.normalize ∧
      permission.normalize.normalize = permission.normalize := by
  refine ⟨fun edges kept => ⟨?_, ?_⟩, fun edges => ?_, fun edges others => normalEdges_eq_iff, fun permission => ?_⟩
  · rintro rfl
    exact normalForm_normalEdges edges
  · exact (normalForm_normalEdges edges).unique
  · exact normalEdges_congr (by simp [Function.comp_def])
  · exact ⟨permission.normalizes_normalize, permission.normalize_normalize⟩

example : normalEdges ["user.view", " user.edit\t", "", "user.view", "   "] = ["user.view", "user.edit"] := by
  decide +kernel

end AccessControl
