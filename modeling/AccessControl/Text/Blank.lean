namespace AccessControl.Text

/-- The code points of the Unicode property White_Space, as closed ranges in ascending order. -/
def whiteSpace : List (Nat × Nat) :=
  [(0x09, 0x0D), (0x20, 0x20), (0x85, 0x85), (0xA0, 0xA0), (0x1680, 0x1680), (0x2000, 0x200A),
    (0x2028, 0x2029), (0x202F, 0x202F), (0x205F, 0x205F), (0x3000, 0x3000)]

def isSpace (c : Char) : Bool :=
  whiteSpace.any fun (first, last) => first ≤ c.toNat && c.toNat ≤ last

/-- No character other than white space, or no character at all. -/
def isBlank (text : String) : Bool :=
  text.toList.all isSpace

/-- The characters from the first to the last that is not white space. -/
def trimChars (chars : List Char) : List Char :=
  ((chars.dropWhile isSpace).reverse.dropWhile isSpace).reverse

def trim (text : String) : String :=
  String.ofList (trimChars text.toList)

@[simp] theorem toList_trim (text : String) : (trim text).toList = trimChars text.toList :=
  String.toList_ofList

/-- The part of `chars` after the white space at its front starts with none. -/
theorem head?_dropSpaces {chars : List Char} {c : Char} (first : c ∈ (chars.dropWhile isSpace).head?) :
    isSpace c = false := by
  have stops := List.head?_dropWhile_not isSpace chars
  rw [Option.mem_def.mp first] at stops
  exact stops

theorem dropSpaces_eq_self {chars : List Char} (first : ∀ c ∈ chars.head?, isSpace c = false) :
    chars.dropWhile isSpace = chars := by
  cases chars with
  | nil => rfl
  | cons c rest => simp [first c (by simp)]

/-- What stands at the front of a text still does after white space has been dropped from its end. -/
theorem head?_trimEnd {chars : List Char} {c : Char}
    (first : c ∈ ((chars.reverse.dropWhile isSpace).reverse).head?) : c ∈ chars.head? := by
  obtain ⟨spaces, split⟩ : ∃ spaces, spaces ++ chars.reverse.dropWhile isSpace = chars.reverse :=
    ⟨_, List.takeWhile_append_dropWhile⟩
  have whole : chars = (chars.reverse.dropWhile isSpace).reverse ++ spaces.reverse := by
    rw [← List.reverse_append, split, List.reverse_reverse]
  rw [whole, List.head?_append]
  simp [Option.mem_def.mp first]

theorem head?_trimChars {chars : List Char} {c : Char} (first : c ∈ (trimChars chars).head?) :
    isSpace c = false :=
  head?_dropSpaces (head?_trimEnd first)

theorem getLast?_trimChars {chars : List Char} {c : Char} (last : c ∈ (trimChars chars).getLast?) :
    isSpace c = false := by
  rw [trimChars, List.getLast?_reverse] at last
  exact head?_dropSpaces last

theorem trimChars_eq_self {chars : List Char} (first : ∀ c ∈ chars.head?, isSpace c = false)
    (last : ∀ c ∈ chars.getLast?, isSpace c = false) : trimChars chars = chars := by
  rw [trimChars, dropSpaces_eq_self first, dropSpaces_eq_self, List.reverse_reverse]
  rw [List.head?_reverse]
  exact last

@[simp] theorem trimChars_trimChars (chars : List Char) : trimChars (trimChars chars) = trimChars chars :=
  trimChars_eq_self (fun _ => head?_trimChars) (fun _ => getLast?_trimChars)

@[simp] theorem trim_trim (text : String) : trim (trim text) = trim text := by
  rw [trim, toList_trim, trimChars_trimChars, trim]

/-- No white space stands at either end. -/
structure Trimmed (text : String) : Prop where
  first : ∀ c ∈ text.toList.head?, isSpace c = false
  last : ∀ c ∈ text.toList.getLast?, isSpace c = false

theorem trimmed_trim (text : String) : Trimmed (trim text) where
  first c first := head?_trimChars (by simpa using first)
  last c last := getLast?_trimChars (by simpa using last)

theorem Trimmed.trim_eq {text : String} (trimmed : Trimmed text) : trim text = text := by
  rw [trim, trimChars_eq_self trimmed.first trimmed.last, String.ofList_toList]

theorem trimChars_eq_nil_iff {chars : List Char} : trimChars chars = [] ↔ ∀ c ∈ chars, isSpace c = true := by
  have drop_eq_nil : ∀ l : List Char, l.dropWhile isSpace = [] ↔ ∀ c ∈ l, isSpace c = true := by
    intro l
    induction l with
    | nil => simp
    | cons c rest ih =>
      by_cases space : isSpace c = true
      · simp [space, ih]
      · simp [space]
  rw [trimChars, List.reverse_eq_nil_iff, drop_eq_nil]
  simp only [List.mem_reverse]
  constructor
  · intro spaces
    refine (drop_eq_nil chars).mp ?_
    cases rest : chars.dropWhile isSpace with
    | nil => rfl
    | cons c _ =>
      have first : c ∈ (chars.dropWhile isSpace).head? := by simp [rest]
      have notSpace := head?_dropSpaces first
      simp [spaces c (by simp [rest])] at notSpace
  · intro spaces c member
    exact spaces c ((List.dropWhile_suffix _).mem member)

theorem isBlank_iff_trim_eq_empty {text : String} : isBlank text = true ↔ trim text = "" := by
  rw [isBlank, List.all_eq_true, trim, String.ofList_eq_empty_iff, trimChars_eq_nil_iff]

end AccessControl.Text
