import AccessControl.Json.Token

namespace AccessControl.Json

/-- An array or object whose end has not been reached; what it holds so far is latest first. -/
inductive Enclosure where
  | array (items : List Json)
  | object (members : List (String × Json))
  /-- An object with a name that still lacks its value. -/
  | member (members : List (String × Json)) (name : String)

inductive Expected where
  | value
  /-- A value, or the end of an array just opened. -/
  | firstItem
  | name
  /-- A name, or the end of an object just opened. -/
  | firstName
  | colon
  /-- A comma, or the end of what is open. -/
  | separator
  /-- Nothing: the value is complete. -/
  | finished (value : Json)

structure Builder where
  enclosing : List Enclosure
  expected : Expected

namespace Builder

def start : Builder := ⟨[], .value⟩

def put (value : Json) : List Enclosure → Option Builder
  | [] => some ⟨[], .finished value⟩
  | .array items :: rest => some ⟨.array (value :: items) :: rest, .separator⟩
  | .member members name :: rest => some ⟨.object ((name, value) :: members) :: rest, .separator⟩
  | .object _ :: _ => none

def beginValue (enclosing : List Enclosure) : Token → Option Builder
  | .scalar value => put value enclosing
  | .text value => put (.string value) enclosing
  | .openArray => some ⟨.array [] :: enclosing, .firstItem⟩
  | .openObject => some ⟨.object [] :: enclosing, .firstName⟩
  | _ => none

def close : List Enclosure → Token → Option Builder
  | .array items :: rest, .closeArray => put (.array items.reverse) rest
  | .object members :: rest, .closeObject => put (.object members.reverse) rest
  | _, _ => none

def beginMember : List Enclosure → Token → Option Builder
  | .object members :: rest, .text name => some ⟨.member members name :: rest, .colon⟩
  | _, _ => none

def separate : List Enclosure → Option Builder
  | .array items :: rest => some ⟨.array items :: rest, .value⟩
  | .object members :: rest => some ⟨.object members :: rest, .name⟩
  | _ => none

def step (builder : Builder) (token : Token) : Option Builder :=
  match builder.expected with
  | .value => beginValue builder.enclosing token
  | .firstItem =>
    match token with
    | .closeArray => close builder.enclosing token
    | _ => beginValue builder.enclosing token
  | .name => beginMember builder.enclosing token
  | .firstName =>
    match token with
    | .closeObject => close builder.enclosing token
    | _ => beginMember builder.enclosing token
  | .colon =>
    match token with
    | .colon => some { builder with expected := .value }
    | _ => none
  | .separator =>
    match token with
    | .comma => separate builder.enclosing
    | _ => close builder.enclosing token
  | .finished _ => none

end Builder

def ofTokens? (tokens : List Token) : Option Json :=
  (tokens.foldlM Builder.step Builder.start).bind fun builder =>
    match builder.expected with
    | .finished value => some value
    | _ => none

/-- The value that a JSON text writes; nothing when the text is not JSON. -/
def parse? (text : String) : Option Json :=
  (tokens? text.toList).bind ofTokens?

end AccessControl.Json
