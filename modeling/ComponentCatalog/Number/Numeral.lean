import ComponentCatalog.Number.Binary

/-!
Decimal numerals: a sign, digits of any script with at most one point among or before them, and an
exponent, each but the digits optional.
-/
namespace ComponentCatalog.Number

structure Numeral where
  negative : Bool
  /-- All digits of the significand, without the point. -/
  digits : List Nat
  places : Nat
  hasPoint : Bool
  exponent : Option Int

namespace Numeral

/-- Neither a point nor an exponent. -/
def isWhole (n : Numeral) : Bool := !n.hasPoint && n.exponent.isNone

/-- The nearest double. -/
def toFloat (n : Numeral) : Float :=
  ofDecimal n.negative (ofDigits 10 n.digits) (n.exponent.getD 0 - n.places)

/-- The integer of a whole numeral, within the digit limit. -/
def toInt (n : Numeral) : Except DigitError Int :=
  if digitLimit < n.digits.length then .error (.reading n.digits.length)
  else .ok (applySign n.negative (ofDigits 10 n.digits))

end Numeral

/-- The decimal digits that begin a text, by value, and what follows them. -/
def leadingDigits : Text → List Nat × Text
  | [] => ([], [])
  | c :: rest =>
    match Text.digitValue? c with
    | none => ([], c :: rest)
    | some d => let (more, tail) := leadingDigits rest; (d :: more, tail)

/-- An exponent that fills the text: a letter `e`, a sign if any, and digits. -/
def exponent? : Text → Option Int
  | [] => none
  | c :: rest =>
    if c = 'e' ∨ c = 'E' then
      let (negative, body) := signed rest
      match leadingDigits body with
      | (d :: more, []) => some (applySign negative (ofDigits 10 (d :: more)))
      | _ => none
    else none

/-- Reads a text that is one numeral from end to end. -/
def numeral? (s : Text) : Option Numeral :=
  let (negative, body) := signed s
  let (whole, afterWhole) := leadingDigits body
  let (hasPoint, (decimals, tail)) :=
    match afterWhole with
    | '.' :: rest => (true, leadingDigits rest)
    | rest => (false, [], rest)
  let result (exponent : Option Int) : Numeral :=
    ⟨negative, whole ++ decimals, decimals.length, hasPoint, exponent⟩
  if whole = [] ∧ decimals = [] then none
  else if tail = [] then some (result none)
  else (exponent? tail).map fun e => result (some e)

/-- The text without its underscores, if each stands between two digits. -/
def withoutUnderscores? : (previous : Option Char) → Text → Option Text
  | previous, [] => if previous = some '_' then none else some []
  | previous, c :: rest =>
    if c = '_' then
      if previous.any Text.isDecimal then withoutUnderscores? (some c) rest else none
    else if previous = some '_' ∧ !Text.isDecimal c then none
    else (withoutUnderscores? (some c) rest).map (c :: ·)

/-- Reads a double from free text: blanks around it, a sign, single underscores between digits and
the names of infinity and of the undefined value in any letter case are allowed. -/
def readFloat? (s : Text) : Option Float :=
  let body := Text.strip s
  let (negative, unsigned) := signed body
  let name := unsigned.map Char.toLower
  if name = "inf".toList ∨ name = "infinity".toList then
    some (ofDecimal negative 1 400)
  else if name = "nan".toList then some (0.0 / 0.0)
  else (withoutUnderscores? none body).bind fun plain => (numeral? plain).map Numeral.toFloat

end ComponentCatalog.Number
