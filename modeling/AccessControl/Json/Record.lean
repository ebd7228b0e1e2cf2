import Std.Data.ExtTreeMap
import AccessControl.Json.Basic

namespace AccessControl.Json

def text? : Json → Option String
  | string value => some value
  | _ => none

def bool? : Json → Option Bool
  | bool value => some value
  | _ => none

def int64? : Json → Option Int64
  | integer value =>
    if Int64.minValue.toInt ≤ value ∧ value ≤ Int64.maxValue.toInt then some (Int64.ofInt value) else none
  | _ => none

def list? (item? : Json → Option α) : Json → Option (List α)
  | array items => items.mapM item?
  | _ => none

def texts? : Json → Option (List String) :=
  list? text?

def textMap? : Json → Option (Std.ExtTreeMap String String)
  | object members => do
    let texts ← members.mapM fun (name, value) => (text? value).map fun text => (name, text)
    return texts.foldl (fun map (name, text) => map.insert name text) ∅
  | _ => none

def ofTextMap (map : Std.ExtTreeMap String String) : Json :=
  object (map.toList.map fun (name, text) => (name, string text))

/-- The value as `read?` reads it, where null stands for no value. -/
def nullable? (read? : Json → Option α) : Json → Option (Option α)
  | null => some none
  | value => (read? value).map some

def ofNullable (write : α → Json) : Option α → Json
  | none => null
  | some value => write value

/-- A name that stands alone: as a string, or as an object whose only member has that name and is null. -/
def name? : Json → Option String
  | string name => some name
  | object [(name, null)] => some name
  | _ => none

/-- The fields of a record that have not been read: by name, or the rest of them in order. -/
inductive Fields where
  | named (members : List (String × Json))
  | ordered (values : List Json)

abbrev RecordReader := StateT Fields Option

namespace RecordReader

/-- The next field: its value if it is given, and whether it is looked up by name. -/
def next (name : String) : RecordReader (Option Json × Bool) := do
  match ← get with
  | .named members => return (lastNamed name members, true)
  | .ordered [] => return (none, false)
  | .ordered (value :: values) =>
    set (Fields.ordered values)
    return (some value, false)

def required (name : String) (read? : Json → Option α) : RecordReader α := do
  match ← next name with
  | (some value, _) => read? value
  | (none, _) => failure

def withDefault (name : String) (read? : Json → Option α) (default : α) : RecordReader α := do
  match ← next name with
  | (some value, _) => read? value
  | (none, _) => return default

/-- A field that may be null, and may be left out of an object. -/
def optional (name : String) (read? : Json → Option α) : RecordReader (Option α) := do
  match ← next name with
  | (some value, _) => nullable? read? value
  | (none, true) => return none
  | (none, false) => failure

def run? (reader : RecordReader α) : Json → Option α
  | object members => (StateT.run reader (.named members)).map Prod.fst
  | array values =>
    match StateT.run reader (.ordered values) with
    | some (record, .ordered []) => some record
    | _ => none
  | _ => none

end RecordReader

end AccessControl.Json
