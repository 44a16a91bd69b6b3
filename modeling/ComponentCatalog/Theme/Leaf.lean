import ComponentCatalog.Code.Bracket
import ComponentCatalog.Code.Literal

/-!
Finding token values in theme source. In the flat form a leaf is a prefix, words of the leaf before
the next colon, and a value; in the nested form it is a key of the first block under the prefix.
-/
namespace ComponentCatalog.Theme

open Text Code

/-- A value at the head of a text, and what follows it. -/
abbrev ValueForm := Text → Option (Text × Text)

/-- Text between marks of any kind. -/
def quotedValue : ValueForm := fun s => do
  let (_, rest) ← one? isStringMark s
  let (value, rest) ← run? (fun c => !isStringMark c) rest
  let (_, rest) ← one? isStringMark rest
  return (value, rest)

def integerValue : ValueForm := run? isDecimal

def decimalValue : ValueForm := run? fun c => isDecimal c || c == '.'

/-- Text without marks, blanks, commas and closing braces, a mark before and after it allowed. -/
def bareValue : ValueForm := fun s => do
  let skipMark (s : Text) : Text := ((one? isStringMark s).map (·.2)).getD s
  let (value, rest) ← run? (fun c => !isStringMark c && !isBlank c && c != ',' && c != '\x7d')
    (skipMark s)
  return (value, skipMark rest)

/-- The words occur in order, without overlap. -/
def inOrder : (words : List Text) → Text → Bool
  | [], _ => true
  | word :: words, s =>
    match cut? word s with
    | none => false
    | some (_, rest) => inOrder words rest

/-- The whole text of a flat leaf and its value; a prefix without its words or its value is stepped
over up to the colon. -/
def flatShape (lead : Text) (form : ValueForm) (words : List Text) :
    Shape (Option (Text × Text)) := fun at_ => do
  let (between, afterColon) ← cut? [':'] (← after? lead at_.rest)
  let skipped := (none, at_.lengthTo afterColon)
  if !inOrder words between then return skipped
  match form (stripStart afterColon) with
  | none => return skipped
  | some (value, rest) => return (some (upTo at_.rest rest, value), at_.lengthTo rest)

/-- The flat leaves under a prefix with the given words. -/
def flatMatches (lead : Text) (form : ValueForm) (words : List Text) (s : Text) :
    List (Text × Text) :=
  (hits (flatShape lead form words) s).filterMap id

/-- One of the names at the beginning of a word, and one of the signs after it. -/
def blockMarker (names : List Text) (signs : List Char) : Marker := fun at_ => do
  guard at_.atWordStart
  let rest ← afterAny? names at_.rest
  let (_, rest) ← one? signs.contains (stripStart rest)
  return rest

/-- A key, a colon and a value; with `tight`, no blank before the colon. -/
def blockEntryShape (tight : Bool) (form : ValueForm) : Shape (Text × Text) := fun at_ => do
  guard at_.atWordStart
  let (key, rest) ← word? at_.rest
  let rest ← after? [':'] (if tight then rest else stripStart rest)
  let (value, rest) ← form (stripStart rest)
  return ((key, value), at_.lengthTo rest)

/-- The entries of the first block under one of the names. -/
def blockEntries (names : List Text) (form : ValueForm) (s : Text) : List (Text × Text) :=
  match blocksAfter (blockMarker names [':', '=']) s with
  | [] => []
  | body :: _ => hits (blockEntryShape false form) body

end ComponentCatalog.Theme
