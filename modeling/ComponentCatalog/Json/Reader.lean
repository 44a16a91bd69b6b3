import ComponentCatalog.Json.Basic

/-!
Reading JSON. Beside the standard grammar the names of infinity and of the undefined value are read;
a repeated member keeps its first place and takes its last value.
-/
namespace ComponentCatalog.Json

open Text

inductive ReadError where
  | malformed
  | digits (count : Nat)
  deriving DecidableEq, Repr

def isJsonBlank (c : Char) : Bool := c == ' ' || c == '\t' || c == '\n' || c == '\r'

def skipBlanks (s : Text) : Text := s.dropWhile isJsonBlank

/-- Four hexadecimal digits. -/
def unit? : Text → Option (Nat × Text)
  | a :: b :: c :: d :: rest =>
    (Number.readBase? 16 [a, b, c, d]).map fun n => (n, rest)
  | _ => none

/-- The character of an escape after its backslash. A surrogate without its partner has no
character of its own. -/
def escape? : Text → Option (Char × Text)
  | 'u' :: rest => do
    let (high, rest) ← unit? rest
    if 0xD800 ≤ high ∧ high < 0xDC00 then
      match rest with
      | '\\' :: 'u' :: more =>
        match unit? more with
        | some (low, tail) =>
          if 0xDC00 ≤ low ∧ low < 0xE000 then
            return (Char.ofNat (0x10000 + (high - 0xD800) * 0x400 + (low - 0xDC00)), tail)
          else return ('\uFFFD', rest)
        | none => none
      | _ => return ('\uFFFD', rest)
    else if 0xDC00 ≤ high ∧ high < 0xE000 then return ('\uFFFD', rest)
    else return (Char.ofNat high, rest)
  | c :: rest =>
    (List.lookup c [('"', '"'), ('\\', '\\'), ('/', '/'), ('b', '\x08'), ('f', '\x0c'), ('n', '\n'),
      ('r', '\r'), ('t', '\t')]).map fun d => (d, rest)
  | [] => none

/-- The rest of a string literal after its opening quote. -/
def readString : (fuel : Nat) → Text → Option (Text × Text)
  | 0, _ => none
  | _ + 1, [] => none
  | fuel + 1, c :: rest =>
    if c = '"' then some ([], rest)
    else if c = '\\' then do
      let (d, rest) ← escape? rest
      let (s, rest) ← readString fuel rest
      return (d :: s, rest)
    else if c.toNat < 0x20 then none
    else do
      let (s, rest) ← readString fuel rest
      return (c :: s, rest)

/-- The whole part of a number: a zero alone, or digits that begin with none. -/
def wholePart? : Text → Option (Text × Text)
  | [] => none
  | '0' :: rest => some (['0'], rest)
  | s => run? Char.isDigit s

/-- A decimal point with digits, if both are here. -/
def decimalPart (s : Text) : Text × Text :=
  match s with
  | '.' :: rest => ((run? Char.isDigit rest).map fun (ds, tail) => ('.' :: ds, tail)).getD ([], s)
  | _ => ([], s)

/-- A letter `e` with a sign, if any, and digits, if they are here. -/
def exponentPart (s : Text) : Text × Text :=
  match s with
  | [] => ([], [])
  | e :: rest =>
    if e = 'e' ∨ e = 'E' then
      let (sign, body) : Text × Text := match rest with
        | '+' :: body => (['+'], body)
        | '-' :: body => (['-'], body)
        | body => ([], body)
      ((run? Char.isDigit body).map fun (ds, tail) => (e :: sign ++ ds, tail)).getD ([], s)
    else ([], s)

def readNumber (negative : Bool) (s : Text) : Except ReadError (Json × Text) :=
  match wholePart? s with
  | none => .error .malformed
  | some (whole, rest) =>
    let (decimals, rest) := decimalPart rest
    let (power, rest) := exponentPart rest
    let sign : Text := if negative then ['-'] else []
    if decimals = [] ∧ power = [] then
      match Number.readSignedDigits (sign ++ whole) with
      | .ok n => .ok (.int n, rest)
      | .error _ => .error (.digits whole.length)
    else
      match Number.numeral? (sign ++ whole ++ decimals ++ power) with
      | some n => .ok (.float n.toFloat, rest)
      | none => .error .malformed

/-- The values that are spelled by a word. -/
def words : List (Text × Json) :=
  [("null".toList, .null), ("true".toList, .bool true), ("false".toList, .bool false),
    ("NaN".toList, .float (0.0 / 0.0)), ("Infinity".toList, .float (1.0 / 0.0)),
    ("-Infinity".toList, .float (-1.0 / 0.0))]

mutual

/-- Reads a value at the head of the text. -/
def readValue : (fuel : Nat) → Text → Except ReadError (Json × Text)
  | 0, _ => .error .malformed
  | fuel + 1, s =>
    match words.findSome? fun (word, value) => (after? word s).map fun rest => (value, rest) with
    | some found => .ok found
    | none =>
      match s with
      | '"' :: rest =>
        match readString (rest.length + 1) rest with
        | some (chars, rest) => .ok (.text chars, rest)
        | none => .error .malformed
      | '[' :: rest =>
        match skipBlanks rest with
        | ']' :: rest => .ok (.list [], rest)
        | rest => (readItems fuel rest).map fun (items, rest) => (.list items, rest)
      | '\x7b' :: rest =>
        match skipBlanks rest with
        | '\x7d' :: rest => .ok (.object [], rest)
        | rest => (readMembers fuel rest).map fun (members, rest) =>
            (.object (Entries.ofPairs members), rest)
      | '-' :: rest => readNumber true rest
      | s => readNumber false s

/-- Reads items through the closing bracket. -/
def readItems : (fuel : Nat) → Text → Except ReadError (List Json × Text)
  | 0, _ => .error .malformed
  | fuel + 1, s => do
    let (item, rest) ← readValue fuel s
    match skipBlanks rest with
    | ']' :: rest => return ([item], rest)
    | ',' :: rest =>
      let (items, rest) ← readItems fuel (skipBlanks rest)
      return (item :: items, rest)
    | _ => .error .malformed

/-- Reads members through the closing brace. -/
def readMembers : (fuel : Nat) → Text → Except ReadError (List (Text × Json) × Text)
  | 0, _ => .error .malformed
  | fuel + 1, s => do
    let ('"' :: rest) := s | .error .malformed
    let some (name, rest) := readString (rest.length + 1) rest | .error .malformed
    let ':' :: rest := skipBlanks rest | .error .malformed
    let (value, rest) ← readValue fuel (skipBlanks rest)
    match skipBlanks rest with
    | '\x7d' :: rest => return ([(name, value)], rest)
    | ',' :: rest =>
      let (members, rest) ← readMembers fuel (skipBlanks rest)
      return ((name, value) :: members, rest)
    | _ => .error .malformed

end

/-- Reads a text that is one JSON document. -/
def read (s : Text) : Except ReadError Json := do
  let (value, rest) ← readValue (2 * s.length + 2) (skipBlanks s)
  if skipBlanks rest = [] then return value else .error .malformed

end ComponentCatalog.Json
