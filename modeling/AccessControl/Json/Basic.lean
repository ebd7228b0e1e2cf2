namespace AccessControl

/-- A number written without fraction and exponent is an integer; any other number keeps its literal. -/
inductive Json where
  | null
  | bool (value : Bool)
  | integer (value : Int)
  | real (literal : String)
  | string (value : String)
  | array (items : List Json)
  | object (members : List (String × Json))

namespace Json

/-- The value of the member with that name. Of several the last counts. -/
def lastNamed (name : String) (members : List (String × Json)) : Option Json :=
  members.foldl (fun found member => if member.1 = name then some member.2 else found) none

def strings (texts : List String) : Json :=
  array (texts.map string)

def hexDigit (n : Nat) : Char :=
  if n < 10 then Char.ofNat (0x30 + n) else Char.ofNat (0x57 + n)

/-- A quotation mark, a backslash or a control character is escaped, the common ones of these with a short form. -/
def escaped (c : Char) : List Char :=
  if c = '"' then ['\\', '"']
  else if c = '\\' then ['\\', '\\']
  else if c = '\x08' then ['\\', 'b']
  else if c = '\t' then ['\\', 't']
  else if c = '\n' then ['\\', 'n']
  else if c = '\x0c' then ['\\', 'f']
  else if c = '\r' then ['\\', 'r']
  else if c.toNat < 0x20 then ['\\', 'u', '0', '0', hexDigit (c.toNat / 16), hexDigit (c.toNat % 16)]
  else [c]

def quoted (text : String) : List Char :=
  '"' :: text.toList.flatMap escaped ++ ['"']

mutual

def chars : Json → List Char
  | null => ['n', 'u', 'l', 'l']
  | bool true => ['t', 'r', 'u', 'e']
  | bool false => ['f', 'a', 'l', 's', 'e']
  | integer value => (toString value).toList
  | real literal => literal.toList
  | string value => quoted value
  | array [] => ['[', ']']
  | array (item :: items) => '[' :: chars item ++ itemChars items
  | object [] => ['\x7b', '\x7d']
  | object ((name, value) :: members) => '\x7b' :: quoted name ++ ':' :: chars value ++ memberChars members

/-- The items after the first, and the closing bracket. -/
def itemChars : List Json → List Char
  | [] => [']']
  | item :: items => ',' :: chars item ++ itemChars items

/-- The members after the first, and the closing brace. -/
def memberChars : List (String × Json) → List Char
  | [] => ['\x7d']
  | (name, value) :: members => ',' :: quoted name ++ ':' :: chars value ++ memberChars members

end

def print (value : Json) : String :=
  String.ofList value.chars

end Json

end AccessControl
