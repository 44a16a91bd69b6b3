import ComponentCatalog.Json.Basic

/-!
Nodes: the self-describing form of everything the catalogue presents. A record names its kind and
its fields, in snake case; a field without a value is null. `payload` is the wire form: field names
in camel case, fields without a value left out, the keys of plain mappings untouched.
-/
namespace ComponentCatalog

inductive Node where
  | null
  | bool (b : Bool)
  | int (n : Int)
  | float (x : Float)
  | text (s : Text)
  | list (items : List Node)
  | mapping (entries : List (Text × Node))
  | record (kind : Text) (fields : List (Text × Node))
  deriving Inhabited

/-- Copies a name in camel case; `pending` tells of an underscore read but not yet written. -/
def camelFrom : (pending : Bool) → Text → Text
  | pending, [] => if pending then ['_'] else []
  | false, c :: rest => if c = '_' then camelFrom true rest else c :: camelFrom false rest
  | true, c :: rest =>
    if c.isLower || c.isDigit then c.toUpper :: camelFrom false rest
    else if c = '_' then '_' :: camelFrom true rest
    else '_' :: c :: camelFrom false rest

/-- The name in camel case: an underscore before a small letter or digit goes, and the letter
becomes a capital. -/
def camelCase (name : Text) : Text := camelFrom false name

namespace Node

def isNull : Node → Bool
  | .null => true
  | _ => false

mutual

/-- The wire form of a node. -/
def payload : Node → Json
  | .null => .null
  | .bool b => .bool b
  | .int n => .int n
  | .float x => .float x
  | .text s => .text s
  | .list items => .list (payloads items)
  | .mapping entries => .object (payloadEntries entries)
  | .record _ fields => .object (payloadFields fields)

def payloads : List Node → List Json
  | [] => []
  | item :: items => payload item :: payloads items

def payloadEntries : List (Text × Node) → List (Text × Json)
  | [] => []
  | (key, value) :: entries => (key, payload value) :: payloadEntries entries

def payloadFields : List (Text × Node) → List (Text × Json)
  | [] => []
  | (_, .null) :: fields => payloadFields fields
  | (name, value) :: fields => (camelCase name, payload value) :: payloadFields fields

end

mutual

/-- A wire form as a node without records. -/
def ofJson : Json → Node
  | .null => .null
  | .bool b => .bool b
  | .int n => .int n
  | .float x => .float x
  | .text s => .text s
  | .list items => .list (ofJsonItems items)
  | .object members => .mapping (ofJsonMembers members)

def ofJsonItems : List Json → List Node
  | [] => []
  | item :: items => ofJson item :: ofJsonItems items

def ofJsonMembers : List (Text × Json) → List (Text × Node)
  | [] => []
  | (name, value) :: members => (name, ofJson value) :: ofJsonMembers members

end

/-- The value, or null. -/
def optional (form : α → Node) : Option α → Node
  | none => .null
  | some a => form a

def texts (items : List Text) : Node := .list (items.map .text)

def textMapping (entries : Entries Text) : Node :=
  .mapping (entries.map fun (key, value) => (key, .text value))

/-- The field names are given as literals. -/
def recordOf (kind : String) (fields : List (String × Node)) : Node :=
  .record kind.toList (fields.map fun (name, value) => (name.toList, value))

end Node

mutual

def Value.node : Value → Node
  | .text s => .text s
  | .int n => .int n
  | .float x => .float x
  | .bool b => .bool b
  | .mapping entries => .mapping (Value.entryNodes entries)

def Value.entryNodes : List (Text × Value) → List (Text × Node)
  | [] => []
  | (key, value) :: entries => (key, value.node) :: Value.entryNodes entries

end

end ComponentCatalog
