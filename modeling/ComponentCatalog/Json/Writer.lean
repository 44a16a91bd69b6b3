import ComponentCatalog.Json.Basic
import ComponentCatalog.Number.Shortest

/-!
Writing JSON. A style fixes layout and number text; the grammar and the order of members are the
same in all of them.
-/
namespace ComponentCatalog.Json

open Text

/-- Why a value was not written. -/
inductive WriteError where
  | digits
  | notFinite
  deriving DecidableEq, Repr

/-- How a document is laid out. -/
structure Style where
  /-- One member or item a line, two blanks deeper than its container. -/
  indented : Bool
  asciiOnly : Bool
  floats : Number.FloatLayout
  /-- Infinities and the undefined value are errors. -/
  finiteOnly : Bool
  /-- Integers beyond the digit limit are errors. -/
  digitLimited : Bool

namespace Style

/-- Printed documents. -/
def document : Style := ⟨true, true, .json, false, true⟩

/-- Answers whose shape is not declared. -/
def free : Style := ⟨false, false, .json, true, true⟩

/-- Answers of a declared shape. -/
def declared : Style := ⟨false, false, .compact, false, false⟩

end Style

def hexDigit (n : Nat) : Char := Nat.digitChar (n % 16)

/-- A UTF-16 unit in four hexadecimal digits. -/
def unitEscape (n : Nat) : Text :=
  ['\\', 'u', hexDigit (n / 4096), hexDigit (n / 256), hexDigit (n / 16), hexDigit n]

/-- The escape of a code point, a surrogate pair beyond the first plane. -/
def codeEscape (n : Nat) : Text :=
  if n < 0x10000 then unitEscape n
  else unitEscape (0xD800 + (n - 0x10000) / 0x400) ++ unitEscape (0xDC00 + (n - 0x10000) % 0x400)

def escapeChar (asciiOnly : Bool) (c : Char) : Text :=
  if c = '"' then ['\\', '"']
  else if c = '\\' then ['\\', '\\']
  else if c = '\n' then ['\\', 'n']
  else if c = '\r' then ['\\', 'r']
  else if c = '\t' then ['\\', 't']
  else if c = '\x08' then ['\\', 'b']
  else if c = '\x0c' then ['\\', 'f']
  else if c.toNat < 0x20 then unitEscape c.toNat
  else if asciiOnly && 0x7E < c.toNat then codeEscape c.toNat
  else [c]

/-- A string literal. -/
def quoted (asciiOnly : Bool) (s : Text) : Text :=
  '"' :: s.flatMap (escapeChar asciiOnly) ++ ['"']

def lineBreak (style : Style) (depth : Nat) : Text :=
  if style.indented then '\n' :: List.replicate (2 * depth) ' ' else []

def colon (style : Style) : Text := if style.indented then [':', ' '] else [':']

mutual

def writeAt (style : Style) (depth : Nat) : Json → Except WriteError Text
  | .null => .ok "null".toList
  | .bool true => .ok "true".toList
  | .bool false => .ok "false".toList
  | .int n =>
    if style.digitLimited ∧ Nat.pow 10 Number.digitLimit ≤ n.natAbs then .error .digits
    else .ok (Number.intText n)
  | .float x =>
    if style.finiteOnly ∧ !x.isFinite then .error .notFinite else .ok (style.floats.text x)
  | .text s => .ok (quoted style.asciiOnly s)
  | .list [] => .ok ['[', ']']
  | .list (item :: items) => do
    let first ← writeAt style (depth + 1) item
    let more ← writeItems style (depth + 1) items
    return '[' :: lineBreak style (depth + 1) ++ first ++ more ++ lineBreak style depth ++ [']']
  | .object [] => .ok ['\x7b', '\x7d']
  | .object ((name, value) :: members) => do
    let first ← writeAt style (depth + 1) value
    let more ← writeMembers style (depth + 1) members
    return '\x7b' :: lineBreak style (depth + 1) ++ quoted style.asciiOnly name ++ colon style ++
      first ++ more ++ lineBreak style depth ++ ['\x7d']

def writeItems (style : Style) (depth : Nat) : List Json → Except WriteError Text
  | [] => .ok []
  | item :: items => do
    let first ← writeAt style depth item
    let more ← writeItems style depth items
    return ',' :: lineBreak style depth ++ first ++ more

def writeMembers (style : Style) (depth : Nat) : List (Text × Json) → Except WriteError Text
  | [] => .ok []
  | (name, value) :: members => do
    let first ← writeAt style depth value
    let more ← writeMembers style depth members
    return ',' :: lineBreak style depth ++ quoted style.asciiOnly name ++ colon style ++ first ++ more

end

/-- The document of a value. -/
def write (style : Style) (value : Json) : Except WriteError Text := writeAt style 0 value

end ComponentCatalog.Json
