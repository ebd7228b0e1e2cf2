import AccessControl.Json.Basic

/-!
The tokens of a JSON text, read by one pass over its characters. The scanner is a state machine, so scanning a
text is scanning its parts one after the other.
-/

namespace AccessControl.Json

inductive Token where
  | openArray
  | closeArray
  | openObject
  | closeObject
  | comma
  | colon
  | scalar (value : Json)
  | text (value : String)

/-- Space, tab, line feed and carriage return; no other white space may stand between tokens. -/
def isGap (c : Char) : Bool :=
  c = ' ' || c = '\t' || c = '\n' || c = '\r'

def digitsValue (digits : List Char) : Nat :=
  digits.foldl (fun value digit => value * 10 + (digit.toNat - 0x30)) 0

def hexValue? (c : Char) : Option Nat :=
  if '0' ≤ c && c ≤ '9' then some (c.toNat - 0x30)
  else if 'a' ≤ c && c ≤ 'f' then some (c.toNat - 0x57)
  else if 'A' ≤ c && c ≤ 'F' then some (c.toNat - 0x37)
  else none

/-- The end of a number: nothing, or an exponent mark, an optional sign and at least one digit. -/
def isExponent : List Char → Bool
  | [] => true
  | mark :: rest =>
    let digits := match rest with
      | '+' :: digits => digits
      | '-' :: digits => digits
      | digits => digits
    (mark = 'e' || mark = 'E') && !digits.isEmpty && digits.all Char.isDigit

/-- What may follow the whole part of a number. -/
def isFractionAndExponent : List Char → Bool
  | '.' :: rest => !(rest.takeWhile Char.isDigit).isEmpty && isExponent (rest.dropWhile Char.isDigit)
  | rest => isExponent rest

/-- A number without fraction and exponent is an integer, save that minus zero is none. -/
def number? (literal : List Char) : Option Json :=
  let (negative, unsigned) := match literal with
    | '-' :: rest => (true, rest)
    | _ => (false, literal)
  let whole := unsigned.takeWhile Char.isDigit
  let rest := unsigned.dropWhile Char.isDigit
  if whole.isEmpty || (whole.head? = some '0' && whole.length ≠ 1) then none
  else if !rest.isEmpty then
    if isFractionAndExponent rest then some (.real (String.ofList literal)) else none
  else if negative then
    if digitsValue whole = 0 then some (.real (String.ofList literal))
    else some (.integer (-(digitsValue whole : Int)))
  else some (.integer (digitsValue whole))

def word? (letters : List Char) : Option Json :=
  if letters = ['n', 'u', 'l', 'l'] then some .null
  else if letters = ['t', 'r', 'u', 'e'] then some (.bool true)
  else if letters = ['f', 'a', 'l', 's', 'e'] then some (.bool false)
  else none

/-- Where in a text the scanner stands. Characters read so far are kept latest first. -/
inductive ScanMode where
  | between
  | word (letters : List Char)
  | number (literal : List Char)
  | text (read : List Char)
  | escape (read : List Char)
  /-- Inside an escape by code unit: the leading surrogate before it, if any, how many digits have been read,
  and their value. -/
  | unit (read : List Char) (leading : Option Nat) (digits : Nat) (value : Nat)
  /-- After a leading surrogate, which needs a trailing one. -/
  | leading (read : List Char) (surrogate : Nat)
  | leadingEscape (read : List Char) (surrogate : Nat)

structure Scanner where
  mode : ScanMode
  tokens : List Token

namespace Scanner

def start : Scanner := ⟨.between, []⟩

def emit (scanner : Scanner) (token : Token) : Scanner :=
  ⟨.between, token :: scanner.tokens⟩

/-- Ends a word or a number, which nothing but the next character ends. -/
def settle (scanner : Scanner) : Option Scanner :=
  match scanner.mode with
  | .between => some scanner
  | .word letters => (word? letters.reverse).map fun value => scanner.emit (.scalar value)
  | .number literal => (number? literal.reverse).map fun value => scanner.emit (.scalar value)
  | _ => none

def stepBetween (scanner : Scanner) (c : Char) : Option Scanner :=
  if isGap c then some scanner
  else if c = '[' then some (scanner.emit .openArray)
  else if c = ']' then some (scanner.emit .closeArray)
  else if c = '\x7b' then some (scanner.emit .openObject)
  else if c = '\x7d' then some (scanner.emit .closeObject)
  else if c = ',' then some (scanner.emit .comma)
  else if c = ':' then some (scanner.emit .colon)
  else if c = '"' then some ⟨.text [], scanner.tokens⟩
  else if c.isAlpha then some ⟨.word [c], scanner.tokens⟩
  else if c.isDigit || c = '-' then some ⟨.number [c], scanner.tokens⟩
  else none

def inNumber (c : Char) : Bool :=
  c.isDigit || c = '.' || c = '+' || c = '-' || c = 'e' || c = 'E'

def unescape? (c : Char) : Option Char :=
  if c = '"' || c = '\\' || c = '/' then some c
  else if c = 'b' then some '\x08'
  else if c = 'f' then some '\x0c'
  else if c = 'n' then some '\n'
  else if c = 'r' then some '\r'
  else if c = 't' then some '\t'
  else none

def isLeadingSurrogate (unit : Nat) : Bool := 0xD800 ≤ unit && unit ≤ 0xDBFF

def isTrailingSurrogate (unit : Nat) : Bool := 0xDC00 ≤ unit && unit ≤ 0xDFFF

/-- Takes a complete code unit: a character of its own, or one half of a surrogate pair. -/
def takeUnit (read : List Char) (leading : Option Nat) (unit : Nat) : Option ScanMode :=
  match leading with
  | some high =>
    if isTrailingSurrogate unit then
      some (.text (Char.ofNat (0x10000 + (high - 0xD800) * 0x400 + (unit - 0xDC00)) :: read))
    else none
  | none =>
    if isLeadingSurrogate unit then some (.leading read unit)
    else if isTrailingSurrogate unit then none
    else some (.text (Char.ofNat unit :: read))

def step (scanner : Scanner) (c : Char) : Option Scanner :=
  match scanner.mode with
  | .between => scanner.stepBetween c
  | .word letters =>
    if c.isAlpha then some { scanner with mode := .word (c :: letters) }
    else scanner.settle.bind (stepBetween · c)
  | .number literal =>
    if inNumber c then some { scanner with mode := .number (c :: literal) }
    else scanner.settle.bind (stepBetween · c)
  | .text read =>
    if c = '"' then some (scanner.emit (.text (String.ofList read.reverse)))
    else if c = '\\' then some { scanner with mode := .escape read }
    else if c.toNat < 0x20 then none
    else some { scanner with mode := .text (c :: read) }
  | .escape read =>
    if c = 'u' then some { scanner with mode := .unit read none 0 0 }
    else (unescape? c).map fun meant => { scanner with mode := .text (meant :: read) }
  | .unit read leading digits value =>
    (hexValue? c).bind fun digit =>
      if digits < 3 then some { scanner with mode := .unit read leading (digits + 1) (value * 16 + digit) }
      else (takeUnit read leading (value * 16 + digit)).map fun mode => { scanner with mode := mode }
  | .leading read surrogate =>
    if c = '\\' then some { scanner with mode := .leadingEscape read surrogate } else none
  | .leadingEscape read surrogate =>
    if c = 'u' then some { scanner with mode := .unit read (some surrogate) 0 0 } else none

end Scanner

/-- The tokens of a text; nothing when some character cannot stand where it does. -/
def tokens? (text : List Char) : Option (List Token) :=
  (text.foldlM Scanner.step Scanner.start).bind fun scanner =>
    scanner.settle.map fun settled => settled.tokens.reverse

end AccessControl.Json
