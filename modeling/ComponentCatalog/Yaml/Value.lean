import ComponentCatalog.Yaml.Binary
import ComponentCatalog.Yaml.Node
import ComponentCatalog.Text.Case
import ComponentCatalog.Text.Entries
import ComponentCatalog.Display

/-!
The value of a YAML text. Of mappings the entries under text keys are kept; a later entry of a key
replaces its value. Binary data is the list of its octets. Dates and times and sets have no value
that settings could use.
-/
namespace ComponentCatalog.Yaml

open Text

inductive Value where
  | null
  | bool (b : Bool)
  | int (n : Int)
  | float (x : Float)
  | text (s : Text)
  | list (items : List Value)
  | mapping (entries : List (Text × Value))
  | other
  deriving Inhabited

def Error.message : Error → Text
  | .malformed => "malformed YAML".toList
  | .digits e => e.message
  | .codePoint => "chr() arg not in range(0x110000)".toList
  | .notInteger base literal =>
    "invalid literal for int() with base ".toList ++ Number.natText base ++ ": ".toList ++
      Display.quoted literal
  | .notFloat literal => "could not convert string to float: ".toList ++ Display.quoted literal
  | .notTruthValue literal => Display.quoted literal
  | .emptyNumber => "string index out of range".toList
  | .year n => "year ".toList ++ Number.natText n ++ " is out of range".toList
  | .month => "month must be in 1..12".toList
  | .day => "day is out of range for month".toList
  | .hour => "hour must be in 0..23".toList
  | .minute => "minute must be in 0..59".toList
  | .second => "second must be in 0..59".toList

def truthValue (s : Text) : Except Error Value :=
  let word := lower s
  if ["yes".toList, "true".toList, "on".toList].contains word then .ok (.bool true)
  else if ["no".toList, "false".toList, "off".toList].contains word then .ok (.bool false)
  else .error (.notTruthValue word)

def baseInteger (base : Nat) (s : Text) : Except Error Nat :=
  match Number.readBase? base s with
  | some n => .ok n
  | none => .error (.notInteger base s)

def decimalInteger (s : Text) : Except Error Int :=
  match Number.readInt? s with
  | .ok (some n) => .ok n
  | .ok none => .error (.notInteger 10 s)
  | .error e => .error (.digits e)

/-- Counts to sixty, the last one first worth one. -/
def sexagesimal (digits : List Int) : Int := digits.foldl (fun n d => n * 60 + d) 0

/-- An integer without its sign and without underscores. -/
def magnitude (s : Text) : Except Error Int :=
  match s with
  | [] => .error .emptyNumber
  | ['0'] => .ok 0
  | '0' :: 'b' :: rest => (baseInteger 2 rest).map Int.ofNat
  | '0' :: 'x' :: rest => (baseInteger 16 rest).map Int.ofNat
  | '0' :: _ => (baseInteger 8 s).map Int.ofNat
  | _ =>
    if ':' ∈ s then sexagesimal <$> (s.splitOn ':').mapM decimalInteger else decimalInteger s

def integer (text : Text) : Except Error Value := do
  let s := text.filter (· ≠ '_')
  if s = [] then throw .emptyNumber
  let (negative, body) := Number.signed s
  let n ← magnitude body
  return .int (if negative then -n else n)

def floatPart (s : Text) : Except Error Float :=
  match Number.readFloat? s with
  | some x => .ok x
  | none => .error (.notFloat s)

/-- The sum of counts to sixty, from the last one on. -/
def sexagesimalFloat (parts : List Float) : Float :=
  (parts.reverse.foldl (fun (sum, unit) x => (sum + x * unit, unit * 60.0)) (0.0, 1.0)).1

def float (text : Text) : Except Error Value := do
  let s := lower (text.filter (· ≠ '_'))
  if s = [] then throw .emptyNumber
  let (negative, body) := Number.signed s
  let x ←
    if body = ".inf".toList then pure (1.0 / 0.0)
    else if body = ".nan".toList then pure (0.0 / 0.0)
    else if ':' ∈ body then sexagesimalFloat <$> (body.splitOn ':').mapM floatPart
    else floatPart body
  return .float (if negative then -x else x)

def daysIn (year month : Nat) : Nat :=
  if month = 2 then
    if year % 4 = 0 ∧ (year % 100 ≠ 0 ∨ year % 400 = 0) then 29 else 28
  else if month = 4 ∨ month = 6 ∨ month = 9 ∨ month = 11 then 30
  else 31

def moment (text : Text) : Except Error Value :=
  match moment? text with
  | none => .error .malformed
  | some m =>
    if m.year = 0 then .error (.year m.year)
    else if m.month = 0 ∨ 12 < m.month then .error .month
    else if m.day = 0 ∨ daysIn m.year m.month < m.day then .error .day
    else match m.time with
      | none => .ok .other
      | some (hour, minute, second) =>
        if 23 < hour then .error .hour
        else if 59 < minute then .error .minute
        else if 59 < second then .error .second
        else .ok .other

def scalar (tag : Tag) (text : Text) : Except Error Value :=
  match tag with
  | .null => .ok .null
  | .bool => truthValue text
  | .int => integer text
  | .float => float text
  | .text => .ok (.text text)
  | .moment => moment text
  | .binary =>
    match if text.all (·.toNat < 128) then octets? text else none with
    | some octets => .ok (.list (octets.map fun (n : Nat) => .int n))
    | none => .error .malformed
  | _ => .error .malformed

def Node.isScalar : Node → Bool
  | .scalar _ _ => true
  | _ => false

/-- The pairs of a mapping with those of the mappings merged into it in front. A lone equals sign is
a text as a key. -/
def flatten : (fuel : Nat) → List (Node × Node) → Except Error (List (Node × Node))
  | 0, _ => .error .malformed
  | fuel + 1, pairs => do
    let merged ← pairs.mapM fun (key, value) => do
      match key, value with
      | .scalar .merge _, .mapping _ inner => flatten fuel inner
      | .scalar .merge _, .sequence _ items =>
        let parts ← items.mapM fun item =>
          match item with
          | .mapping _ inner => flatten fuel inner
          | _ => .error .malformed
        return parts.reverse.flatten
      | .scalar .merge _, .scalar _ _ => .error .malformed
      | _, _ => return []
    let own := pairs.filterMap fun (key, value) =>
      match key with
      | .scalar .merge _ => none
      | .scalar .standIn text => some (.scalar .text text, value)
      | key => some (key, value)
    return merged.flatten ++ own

/-- The value of a node. -/
def ofNode : (fuel : Nat) → Node → Except Error Value
  | 0, _ => .error .malformed
  | fuel + 1, n =>
    let pairsOf (pairs : List (Node × Node)) : Except Error (Entries Value) := do
      let entries ← (← flatten fuel pairs).mapM fun (key, value) => do
        let name ← ofNode fuel key
        if !key.isScalar then throw .malformed
        return (name, ← ofNode fuel value)
      return Entries.ofPairs (entries.filterMap fun (name, value) =>
        match name with
        | .text s => some (s, value)
        | _ => none)
    match n with
    | .scalar tag text => scalar tag text
    | .sequence .sequence items => .list <$> items.mapM (ofNode fuel)
    | .sequence .orderedPairs items | .sequence .pairs items => do
      let items ← items.mapM fun item => do
        match item with
        | .mapping _ [(key, value)] =>
          let _ ← ofNode fuel key
          let _ ← ofNode fuel value
          return Value.other
        | _ => throw .malformed
      return .list items
    | .mapping .mapping pairs => .mapping <$> pairsOf pairs
    | .mapping .set pairs => do
      let _ ← pairsOf pairs
      return .other
    | _ => .error .malformed

/-- Reads a text that holds one document at most; without one its value is null. -/
def read (s : Text) : Except Error Value := do
  let tokens ← tokens s
  match ← Node.ofTokens tokens with
  | none => return .null
  | some n => ofNode (tokens.length + 2) n

end ComponentCatalog.Yaml
