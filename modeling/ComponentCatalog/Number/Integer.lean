import ComponentCatalog.Text.Class

/-!
Integers in decimal and in the bases with a prefix. Decimal text of more than `digitLimit` digits
is neither read nor written.
-/
namespace ComponentCatalog

/-- Why a decimal integer was not converted. -/
inductive DigitError
  | reading (digits : Nat)
  | writing
  deriving DecidableEq, Repr

namespace Number

/-- The most digits of a decimal integer that may be read or written. -/
def digitLimit : Nat := 4300

/-- The value of digits, most significant first. -/
def ofDigits (base : Nat) (digits : List Nat) : Nat :=
  digits.foldl (fun value digit => value * base + digit) 0

/-- The decimal text of a natural number. -/
def natText (n : Nat) : Text := Nat.toDigits 10 n

/-- The decimal text of an integer of any size. -/
def intText : Int → Text
  | .ofNat n => natText n
  | .negSucc n => '-' :: natText (n + 1)

/-- The decimal text of an integer within the digit limit. -/
def writeInt (n : Int) : Except DigitError Text :=
  if Nat.pow 10 digitLimit ≤ n.natAbs then .error .writing else .ok (intText n)

/-- A sign, if any, and what follows it. -/
def signed : Text → Bool × Text
  | '-' :: rest => (true, rest)
  | '+' :: rest => (false, rest)
  | s => (false, s)

def applySign (negative : Bool) (n : Nat) : Int := if negative then -n else n

/-- The integer of a text that is a sign, if any, and decimal digits. -/
def readSignedDigits (s : Text) : Except DigitError Int :=
  let (negative, body) := signed s
  let digits := body.filterMap Text.digitValue?
  if digitLimit < digits.length then .error (.reading digits.length)
  else .ok (applySign negative (ofDigits 10 digits))

/-- The value of a letter or ASCII digit as a digit of a base up to sixteen. -/
def hexValue? (c : Char) : Option Nat :=
  if c.isDigit then some (c.toNat - 48)
  else if 'a' ≤ c ∧ c ≤ 'f' then some (c.toNat - 87)
  else if 'A' ≤ c ∧ c ≤ 'F' then some (c.toNat - 55)
  else none

/-- The number written in `base`: at least one digit, all of them below it. -/
def readBase? (base : Nat) (s : Text) : Option Nat := do
  guard (s ≠ [])
  let digits ← s.mapM fun c => (hexValue? c).filter (· < base)
  return ofDigits base digits

/-- The texts of decimal digits between single underscores, joined. -/
def ungrouped? : (afterDigit : Bool) → Text → Option Text
  | afterDigit, [] => if afterDigit then some [] else none
  | afterDigit, c :: rest =>
    if c = '_' then if afterDigit then ungrouped? false rest else none
    else if Text.isDecimal c then (ungrouped? true rest).map (c :: ·)
    else none

/-- Reads a decimal integer from free text: blanks around it, a sign and single underscores between
digits are allowed; `none` where the text is no integer. -/
def readInt? (s : Text) : Except DigitError (Option Int) :=
  let (negative, body) := signed (Text.strip s)
  match ungrouped? false body with
  | none => .ok none
  | some digits => (readSignedDigits digits).map fun n => some (if negative then -n else n)

end Number

def DigitError.message : DigitError → Text
  | .reading digits =>
    "Exceeds the limit (4300 digits) for integer string conversion: value has ".toList ++
      Number.natText digits ++
      " digits; use sys.set_int_max_str_digits() to increase the limit".toList
  | .writing =>
    "Exceeds the limit (4300 digits) for integer string conversion; ".toList ++
      "use sys.set_int_max_str_digits() to increase the limit".toList

end ComponentCatalog
