import ComponentCatalog.Display
import ComponentCatalog.Number.Fixed

/-!
Messages with placeholders. A placeholder is a percent sign, flags, a least width, a precision and a
letter that tells how the next argument is spelled; two percent signs stand for one.
-/
namespace ComponentCatalog.Log

open Text

/-- What a placeholder says before its letter. -/
structure Placeholder where
  isLeft : Bool := false
  hasPlus : Bool := false
  hasBlank : Bool := false
  hasZeros : Bool := false
  isMarked : Bool := false
  width : Nat := 0
  precision : Option Nat := none
  deriving DecidableEq, Repr

namespace Placeholder

/-- Flags stand before the width and the precision. -/
def takesFlag (p : Placeholder) : Bool := p.width = 0 && p.precision.isNone

/-- The placeholder with one more character; `none` for a character that ends it. -/
def extend? (p : Placeholder) (c : Char) : Option Placeholder :=
  if p.takesFlag && c == '-' then some { p with isLeft := true }
  else if p.takesFlag && c == '+' then some { p with hasPlus := true }
  else if p.takesFlag && c == ' ' then some { p with hasBlank := true }
  else if p.takesFlag && c == '0' then some { p with hasZeros := true }
  else if p.takesFlag && c == '#' then some { p with isMarked := true }
  else if p.precision.isNone && c == '.' then some { p with precision := some 0 }
  else if c.isDigit then
    let digit := c.toNat - '0'.toNat
    match p.precision with
    | none => some { p with width := p.width * 10 + digit }
    | some n => some { p with precision := some (n * 10 + digit) }
  else if c == 'h' || c == 'l' || c == 'L' then some p
  else none

/-- Blanks up to the width, before the text or after it. -/
def pad (p : Placeholder) (s : Text) : Text :=
  let blanks := List.replicate (p.width - s.length) ' '
  if p.isLeft then s ++ blanks else blanks ++ s

def spellText (p : Placeholder) (s : Text) : Text :=
  p.pad (match p.precision with
    | none => s
    | some n => s.take n)

/-- A number: its sign, what marks its base, and its digits. -/
def spellNumber (p : Placeholder) (negative : Bool) (mark digits : Text) : Text :=
  let sign := if negative then ['-'] else if p.hasPlus then ['+'] else
    if p.hasBlank then [' '] else []
  let lead := sign ++ mark
  if p.hasZeros && !p.isLeft then
    lead ++ List.replicate (p.width - lead.length - digits.length) '0' ++ digits
  else p.pad (lead ++ digits)

def spellInt (p : Placeholder) (base : Nat) (mark : Text) (n : Int) : Text :=
  let digits := Nat.toDigits base n.natAbs
  let digits := List.replicate (p.precision.getD 0 - digits.length) '0' ++ digits
  p.spellNumber (n < 0) (if p.isMarked then mark else []) digits

def spellFloat (p : Placeholder) (x : Float) : Text :=
  if x.isFinite then
    let places := p.precision.getD 6
    let point := if p.isMarked && places == 0 then ['.'] else []
    p.spellNumber (Number.isNegative x) [] (Number.fixedText places x ++ point)
  else if x.isNaN then { p with hasZeros := false }.spellNumber false [] "nan".toList
  else { p with hasZeros := false }.spellNumber (x < 0) [] "inf".toList

/-- A whole number or a truth value as an integer. -/
def whole? : Json → Option Int
  | .int n => some n
  | .bool b => some (if b then 1 else 0)
  | _ => none

/-- The integer part of a number. -/
def truncated? (value : Json) : Option Int :=
  match value with
  | .float x =>
    if x.isFinite then
      let (m, e) := Number.magnitude x
      let (num, den) := Number.scaleByPower 2 m e
      some (Number.applySign (Number.isNegative x) (num / den))
    else none
  | value => whole? value

def float? (value : Json) : Option Float :=
  match value with
  | .float x => some x
  | value => (whole? value).bind Number.ofInt?

/-- The argument as the letter of the placeholder says; `none` where the two do not fit. -/
def spell? (p : Placeholder) (letter : Char) (value : Json) : Option Text :=
  match letter with
  | 's' => (Display.ofJson value).toOption.map p.spellText
  | 'r' => (Display.inner value).toOption.map p.spellText
  | 'd' | 'i' | 'u' => (truncated? value).map (p.spellInt 10 [])
  | 'x' => (whole? value).map (p.spellInt 16 ['0', 'x'])
  | 'X' => (whole? value).map fun n => (p.spellInt 16 ['0', 'x'] n).map Char.toUpper
  | 'o' => (whole? value).map (p.spellInt 8 ['0', 'o'])
  | 'f' | 'F' => (float? value).map p.spellFloat
  | 'c' =>
    match value with
    | .text [c] => some (p.pad [c])
    | value => (whole? value).map fun n => p.pad [Char.ofNat n.toNat]
  | _ => none

end Placeholder

/-- Fills the placeholders with the arguments in turn, from inside a placeholder if one is given. -/
def fillFrom : Option Placeholder → Text → List Json → Option Text
  | none, [], [] => some []
  | none, [], _ :: _ => none
  | some _, [], _ => none
  | none, c :: rest, arguments =>
    if c = '%' then fillFrom (some {}) rest arguments
    else (fillFrom none rest arguments).map (c :: ·)
  | some p, c :: rest, arguments =>
    if c = '%' then (fillFrom none rest arguments).map ('%' :: ·)
    else match p.extend? c with
      | some p => fillFrom (some p) rest arguments
      | none =>
        match arguments with
        | [] => none
        | value :: arguments => do
          return (← p.spell? c value) ++ (← fillFrom none rest arguments)

/-- The message with its placeholders filled; without arguments the message as it stands. `none`
where the arguments do not fit. -/
def fill (message : Text) (arguments : List Json) : Option Text :=
  if arguments.isEmpty then some message else fillFrom none message arguments

end ComponentCatalog.Log
