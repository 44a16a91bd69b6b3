import ComponentCatalog.Yaml.Token
import ComponentCatalog.Number.Numeral

/-!
Tags: the kinds of YAML values, by name and, for plain scalars, by spelling.
-/
namespace ComponentCatalog.Yaml

open Text

inductive Tag where
  | null | bool | int | float | text | moment
  | merge
  /-- The tag of a lone equals sign. -/
  | standIn
  | sequence | mapping
  | binary | orderedPairs | pairs | set
  | unknown
  deriving DecidableEq, Repr

def Tag.names : List (Text × Tag) :=
  [("null".toList, .null), ("bool".toList, .bool), ("int".toList, .int), ("float".toList, .float),
    ("str".toList, .text), ("timestamp".toList, .moment), ("merge".toList, .merge),
    ("value".toList, .standIn), ("seq".toList, .sequence), ("map".toList, .mapping),
    ("binary".toList, .binary), ("omap".toList, .orderedPairs), ("pairs".toList, .pairs),
    ("set".toList, .set)]

def Tag.standardLead : Text := "tag:yaml.org,2002:".toList

/-- The tag of a full name. -/
def Tag.ofName (name : Text) : Tag :=
  ((after? standardLead name).bind fun s => List.lookup s names).getD .unknown

/-- One of the words, in small letters, with a capital, or in capitals. -/
def isWordOf (words : List String) (s : Text) : Bool :=
  words.any fun w =>
    let word := w.toList
    s == word || s == word.map Char.toUpper ||
      s == (word.take 1).map Char.toUpper ++ word.drop 1

def isTruthValue (s : Text) : Bool := isWordOf ["yes", "no", "true", "false", "on", "off"] s

def isNull (s : Text) : Bool := s == [] || s == ['~'] || isWordOf ["null"] s

def isGroupedDigit (c : Char) : Bool := c.isDigit || c == '_'

/-- A digit, then digits and underscores. -/
def isGroupedNumber : Text → Bool
  | [] => false
  | c :: rest => c.isDigit && rest.all isGroupedDigit

/-- Two digits of a count to sixty, the first one optional. -/
def isSixtieth : Text → Bool
  | [c] => c.isDigit
  | [c, d] => '0' ≤ c && c ≤ '5' && d.isDigit
  | _ => false

/-- `e`, a sign and digits, or nothing. -/
def isExponent : Text → Bool
  | [] => true
  | c :: sign :: digits =>
    (c == 'e' || c == 'E') && (sign == '+' || sign == '-') && digits ≠ [] && digits.all Char.isDigit
  | _ => false

/-- Digits, a point, more digits and an exponent. -/
def isDecimalText (s : Text) : Bool :=
  match cut? ['.'] s with
  | none => false
  | some (whole, rest) =>
    isGroupedNumber whole && isExponent (rest.dropWhile isGroupedDigit)

/-- A point, digits and an exponent. -/
def isFractionText : Text → Bool
  | '.' :: c :: rest => c.isDigit && isExponent (rest.dropWhile isGroupedDigit)
  | _ => false

/-- Counts to sixty after a number and colons, with a point at the end. -/
def isSexagesimalFloat (s : Text) : Bool :=
  match cut? ['.'] s with
  | none => false
  | some (whole, decimals) =>
    decimals.all isGroupedDigit &&
      match whole.splitOn ':' with
      | first :: more => isGroupedNumber first && more ≠ [] && more.all isSixtieth
      | [] => false

def isFloat (s : Text) : Bool :=
  let body := (Number.signed s).2
  isDecimalText body || isFractionText s || isSexagesimalFloat body ||
    (body.head? == some '.' && isWordOf ["inf"] body.tail && body.tail ≠ []) ||
    (s.head? == some '.' && [("nan".toList), "NaN".toList, "NAN".toList].contains s.tail)

/-- Digits that begin with none but a single zero. -/
def isPlainInteger : Text → Bool
  | ['0'] => true
  | c :: rest => '1' ≤ c && c ≤ '9' && rest.all isGroupedDigit
  | [] => false

def isInt (s : Text) : Bool :=
  let body := (Number.signed s).2
  isPlainInteger body ||
    (match body with
      | '0' :: 'b' :: digits =>
        digits ≠ [] && digits.all fun c => c == '0' || c == '1' || c == '_'
      | '0' :: 'x' :: digits =>
        digits ≠ [] && digits.all fun c => (Number.hexValue? c).isSome || c == '_'
      | '0' :: digits => digits ≠ [] && digits.all fun c => ('0' ≤ c && c ≤ '7') || c == '_'
      | _ => false) ||
    (match body.splitOn ':' with
      | first :: more => first ≠ ['0'] && isPlainInteger first && more ≠ [] && more.all isSixtieth
      | [] => false)

/-- Between `least` and `most` digits here, as many as there are. -/
def digits? (least most : Nat) (s : Text) : Option (Nat × Text) :=
  let found := (s.take most).takeWhile Char.isDigit
  if found.length < least then none
  else some (Number.ofDigits 10 (found.map fun c => c.toNat - 48), s.drop found.length)

structure Moment where
  year : Nat
  month : Nat
  day : Nat
  /-- Hour, minute and second. -/
  time : Option (Nat × Nat × Nat)

/-- A time of day after its separator, with a fraction and a zone. -/
def timeOfDay? (s : Text) : Option (Nat × Nat × Nat) := do
  let rest ← match s with
    | [] => none
    | c :: rest =>
      if c = 'T' ∨ c = 't' then some rest
      else if c = ' ' ∨ c = '\t' then some (s.dropWhile fun c => c == ' ' || c == '\t')
      else none
  let (hour, rest) ← digits? 1 2 rest
  let (minute, rest) ← digits? 2 2 (← after? [':'] rest)
  let (second, rest) ← digits? 2 2 (← after? [':'] rest)
  let rest := match rest with
    | '.' :: rest => rest.dropWhile Char.isDigit
    | rest => rest
  if rest = [] then return (hour, minute, second)
  match rest.dropWhile fun c => c == ' ' || c == '\t' with
  | ['Z'] => return (hour, minute, second)
  | sign :: rest =>
    guard (sign = '+' ∨ sign = '-')
    let (_, rest) ← digits? 1 2 rest
    if rest = [] then return (hour, minute, second)
    let (_, rest) ← digits? 2 2 (← after? [':'] rest)
    guard (rest = [])
    return (hour, minute, second)
  | [] => none

/-- A date, or a date with a time, whose month and day may then have one digit. -/
def moment? (s : Text) : Option Moment := do
  let (year, rest) ← digits? 4 4 s
  let (month, afterMonth) ← digits? 1 2 (← after? ['-'] rest)
  let (day, rest) ← digits? 1 2 (← after? ['-'] afterMonth)
  if rest = [] then
    guard (s.length = 10)
    return ⟨year, month, day, none⟩
  else return ⟨year, month, day, some (← timeOfDay? rest)⟩

/-- The tag of a plain scalar. -/
def Tag.ofSpelling (text : Text) : Tag :=
  let s := if text.getLast? = some '\n' ∧ text ≠ ['\n'] then text.dropLast else text
  if isTruthValue s then .bool
  else if isFloat s then .float
  else if isInt s then .int
  else if s = ['<', '<'] then .merge
  else if isNull s then .null
  else if (moment? s).isSome then .moment
  else if s = ['='] then .standIn
  else .text

end ComponentCatalog.Yaml
