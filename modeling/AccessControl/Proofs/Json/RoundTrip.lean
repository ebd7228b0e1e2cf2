import AccessControl.Json.Parser
import AccessControl.Json.Record

/-!
Reading back what has been printed, for lists of strings and for objects of strings. Both passes of the reader
take a text part by part, so each part is followed on its own, whatever has been read before it.
-/

namespace AccessControl.Json

open Scanner (step)

theorem hexValue?_hexDigit {n : Nat} (small : n < 16) : hexValue? (hexDigit n) = some n := by
  have all : ∀ n < 16, hexValue? (hexDigit n) = some n := by decide
  exact all n small

/-- The scanner takes a control character written by its code unit for the character itself. -/
theorem scan_control {c : Char} (control : c.toNat < 0x20) (read : List Char) (tokens : List Token) :
    ['\\', 'u', '0', '0', hexDigit (c.toNat / 16), hexDigit (c.toNat % 16)].foldlM step ⟨.text read, tokens⟩ =
      some ⟨.text (c :: read), tokens⟩ := by
  have high : hexValue? (hexDigit (c.toNat / 16)) = some (c.toNat / 16) := hexValue?_hexDigit (by omega)
  have low : hexValue? (hexDigit (c.toNat % 16)) = some (c.toNat % 16) := hexValue?_hexDigit (by omega)
  have unit : c.toNat / 16 * 16 + c.toNat % 16 = c.toNat := by omega
  have zero : hexValue? '0' = some 0 := by decide
  have taken : Scanner.takeUnit read none c.toNat = some (.text (c :: read)) := by
    have notLeading : ¬ 0xD800 ≤ c.toNat := by omega
    have notTrailing : ¬ 0xDC00 ≤ c.toNat := by omega
    simp [Scanner.takeUnit, Scanner.isLeadingSurrogate, Scanner.isTrailingSurrogate, notLeading, notTrailing]
  simp [step, zero, high, low, unit, taken]

theorem scan_escaped (c : Char) (read : List Char) (tokens : List Token) :
    (escaped c).foldlM step ⟨.text read, tokens⟩ = some ⟨.text (c :: read), tokens⟩ := by
  unfold escaped
  by_cases quote : c = '"'
  · subst quote
    rfl
  by_cases backslash : c = '\\'
  · subst backslash
    rfl
  by_cases backspace : c = '\x08'
  · subst backspace
    rfl
  by_cases tab : c = '\t'
  · subst tab
    rfl
  by_cases newline : c = '\n'
  · subst newline
    rfl
  by_cases feed : c = '\x0c'
  · subst feed
    rfl
  by_cases ret : c = '\r'
  · subst ret
    rfl
  by_cases control : c.toNat < 0x20
  · simpa only [quote, backslash, backspace, tab, newline, feed, ret, control, if_true, if_false] using
      scan_control control read tokens
  · simp [quote, backslash, backspace, tab, newline, feed, ret, control, step]

theorem scan_flatMap_escaped (chars read : List Char) (tokens : List Token) :
    (chars.flatMap escaped).foldlM step ⟨.text read, tokens⟩ = some ⟨.text (chars.reverse ++ read), tokens⟩ := by
  induction chars generalizing read with
  | nil => rfl
  | cons c rest ih =>
    rw [List.flatMap_cons, List.foldlM_append, scan_escaped]
    have later := ih (c :: read)
    simpa using later

/-- Between tokens, scanning these characters adds just these tokens to those found before. -/
def Scans (chars : List Char) (tokens : List Token) : Prop :=
  ∀ earlier, chars.foldlM step ⟨.between, earlier⟩ = some ⟨.between, tokens.reverse ++ earlier⟩

theorem Scans.append {first second : List Char} {tokens more : List Token} (scans : Scans first tokens)
    (continues : Scans second more) : Scans (first ++ second) (tokens ++ more) := by
  intro earlier
  rw [List.foldlM_append, scans earlier]
  have later := continues (tokens.reverse ++ earlier)
  simpa using later

theorem scans_nil : Scans [] [] := fun _ => rfl

theorem Scans.symbol {c : Char} {token : Token} {chars : List Char} {tokens : List Token}
    (alone : ∀ earlier, Scanner.stepBetween ⟨.between, earlier⟩ c = some ⟨.between, token :: earlier⟩)
    (scans : Scans chars tokens) : Scans (c :: chars) (token :: tokens) := by
  have first : Scans [c] [token] := by
    intro earlier
    have stepped : step ⟨.between, earlier⟩ c = some ⟨.between, token :: earlier⟩ := alone earlier
    simp [stepped]
  exact first.append scans

theorem scans_quoted (text : String) : Scans (quoted text) [.text text] := by
  intro earlier
  have opened : step ⟨.between, earlier⟩ '"' = some ⟨.text [], earlier⟩ := rfl
  have inside := scan_flatMap_escaped text.toList [] earlier
  have closed : step ⟨.text text.toList.reverse, earlier⟩ '"' = some ⟨.between, .text text :: earlier⟩ := by
    simp [step, Scanner.emit]
  rw [List.append_nil] at inside
  rw [quoted, List.cons_append, List.foldlM_cons, opened, Option.bind_eq_bind, Option.bind_some,
    List.foldlM_append, inside, Option.bind_eq_bind, Option.bind_some, List.foldlM_cons, closed]
  rfl

theorem Scans.tokens?_eq {chars : List Char} {tokens : List Token} (scans : Scans chars tokens) :
    tokens? chars = some tokens := by
  have scanned := scans []
  rw [List.append_nil] at scanned
  rw [tokens?, Scanner.start, scanned]
  simp [Scanner.settle]

/-- The tokens of the items after the first, and of the closing bracket. -/
def itemTokens (texts : List String) : List Token :=
  texts.flatMap (fun text => [.comma, .text text]) ++ [.closeArray]

theorem scans_itemChars (texts : List String) : Scans (itemChars (texts.map string)) (itemTokens texts) := by
  induction texts with
  | nil => exact scans_nil.symbol fun _ => rfl
  | cons text rest ih =>
    have item : Scans (chars (string text)) [.text text] := scans_quoted text
    exact (item.append ih).symbol fun _ => rfl

/-- The tokens of the members after the first, and of the closing brace. -/
def memberTokens (members : List (String × String)) : List Token :=
  members.flatMap (fun (name, text) => [.comma, .text name, .colon, .text text]) ++ [.closeObject]

def textMembers (members : List (String × String)) : List (String × Json) :=
  members.map fun (name, text) => (name, string text)

theorem scans_memberChars (members : List (String × String)) :
    Scans (memberChars (textMembers members)) (memberTokens members) := by
  induction members with
  | nil => exact scans_nil.symbol fun _ => rfl
  | cons member rest ih =>
    obtain ⟨name, text⟩ := member
    have value : Scans (chars (string text)) [.text text] := scans_quoted text
    have colon : Scans (':' :: (chars (string text) ++ memberChars (textMembers rest)))
        (.colon :: .text text :: memberTokens rest) := (value.append ih).symbol fun _ => rfl
    have whole : Scans (',' :: (quoted name ++ ':' :: (chars (string text) ++ memberChars (textMembers rest))))
        (.comma :: .text name :: .colon :: .text text :: memberTokens rest) :=
      ((scans_quoted name).append colon).symbol fun _ => rfl
    simpa [memberChars, textMembers, memberTokens] using whole

open Builder (put)

theorem build_items (texts : List String) (items : List Json) (enclosing : List Enclosure) :
    (itemTokens texts).foldlM Builder.step ⟨.array items :: enclosing, .separator⟩ =
      put (.array (items.reverse ++ texts.map string)) enclosing := by
  induction texts generalizing items with
  | nil =>
    simp [itemTokens, Builder.step, Builder.close]
  | cons text rest ih =>
    have later := ih (string text :: items)
    simpa [itemTokens, Builder.step, Builder.separate, Builder.beginValue, put] using later

theorem build_members (members : List (String × String)) (found : List (String × Json))
    (enclosing : List Enclosure) :
    (memberTokens members).foldlM Builder.step ⟨.object found :: enclosing, .separator⟩ =
      put (.object (found.reverse ++ textMembers members)) enclosing := by
  induction members generalizing found with
  | nil =>
    simp [memberTokens, textMembers, Builder.step, Builder.close]
  | cons member rest ih =>
    obtain ⟨name, text⟩ := member
    have later := ih ((name, string text) :: found)
    simpa [memberTokens, textMembers, Builder.step, Builder.separate, Builder.beginMember, Builder.beginValue, put]
      using later

theorem parse?_print_strings (texts : List String) : parse? (print (strings texts)) = some (strings texts) := by
  rw [parse?, print, String.toList_ofList]
  cases texts with
  | nil => rfl
  | cons text rest =>
    have item : Scans (chars (string text)) [.text text] := scans_quoted text
    have scanned : Scans (chars (strings (text :: rest))) (.openArray :: .text text :: itemTokens rest) :=
      (item.append (scans_itemChars rest)).symbol fun _ => rfl
    have built := build_items rest [string text] []
    rw [scanned.tokens?_eq, Option.bind_some, ofTokens?]
    simp [Builder.start, Builder.step, Builder.beginValue, put, built, strings]

theorem parse?_print_members (members : List (String × String)) :
    parse? (print (object (textMembers members))) = some (object (textMembers members)) := by
  rw [parse?, print, String.toList_ofList]
  cases members with
  | nil => rfl
  | cons member rest =>
    obtain ⟨name, text⟩ := member
    have value : Scans (chars (string text)) [.text text] := scans_quoted text
    have colon : Scans (':' :: (chars (string text) ++ memberChars (textMembers rest)))
        (.colon :: .text text :: memberTokens rest) := (value.append (scans_memberChars rest)).symbol fun _ => rfl
    have whole : Scans (chars (object (textMembers ((name, text) :: rest))))
        (.openObject :: .text name :: .colon :: .text text :: memberTokens rest) := by
      have opened : Scans ('\x7b' :: (quoted name ++ ':' :: (chars (string text) ++ memberChars (textMembers rest))))
          (.openObject :: .text name :: .colon :: .text text :: memberTokens rest) :=
        ((scans_quoted name).append colon).symbol fun _ => rfl
      simpa [chars, textMembers] using opened
    have built := build_members rest [(name, string text)] []
    rw [whole.tokens?_eq, Option.bind_some, ofTokens?]
    simp [Builder.start, Builder.step, Builder.beginMember, Builder.beginValue, put, built, textMembers]

theorem texts?_strings (texts : List String) : texts? (strings texts) = some texts := by
  simp only [texts?, strings, list?]
  induction texts with
  | nil => rfl
  | cons text rest ih => simp [text?, ih]

theorem mapM_textMembers (members : List (String × String)) :
    ((textMembers members).mapM fun (name, value) => (text? value).map fun text => (name, text)) = some members := by
  induction members with
  | nil => rfl
  | cons member rest ih =>
    rw [textMembers] at ih
    rw [textMembers, List.map_cons, List.mapM_cons, ih]
    rfl

theorem foldl_insert_toList (map : Std.ExtTreeMap String String) :
    map.toList.foldl (fun map (name, text) => map.insert name text) ∅ = map := by
  rw [← Std.ExtTreeMap.insertMany_list_eq_foldl]
  refine Std.ExtTreeMap.ext_getElem? fun name => ?_
  cases found : map[name]? with
  | some text =>
    have entry : (name, text) ∈ map.toList := Std.ExtTreeMap.mem_toList_iff_getElem?_eq_some.mpr found
    exact Std.ExtTreeMap.getElem?_insertMany_list_of_mem Std.ReflCmp.compare_self
      Std.ExtTreeMap.distinct_keys_toList entry
  | none =>
    have missing : (map.toList.map Prod.fst).contains name = false := by
      simpa [Std.ExtTreeMap.map_fst_toList_eq_keys] using found
    rw [Std.ExtTreeMap.getElem?_insertMany_list_of_contains_eq_false missing]
    simp

theorem textMap?_ofTextMap (map : Std.ExtTreeMap String String) : textMap? (ofTextMap map) = some map := by
  have members := mapM_textMembers map.toList
  simp only [textMembers] at members
  simp [textMap?, ofTextMap, members, foldl_insert_toList]

theorem parse?_print_ofTextMap (map : Std.ExtTreeMap String String) :
    parse? (print (ofTextMap map)) = some (ofTextMap map) :=
  parse?_print_members map.toList

end AccessControl.Json
