import ComponentCatalog.Text.Entries
import ComponentCatalog.Text.Scan
import ComponentCatalog.Number.Numeral

/-!
Literals in program text, and the mining of `key: value` entries. Mining is no parsing: an entry is
a word, a colon and what follows up to a comma, a closing brace or a line feed, wherever it stands.
-/
namespace ComponentCatalog

/-- A literal, or a mapping of literals by key. -/
inductive Value where
  | text (s : Text)
  | int (n : Int)
  | float (x : Float)
  | bool (b : Bool)
  | mapping (entries : List (Text × Value))
  deriving Inhabited

namespace Code

open Text

def basePrefix? (mark : Char) : Option Nat :=
  if mark = 'x' ∨ mark = 'X' then some 16
  else if mark = 'b' ∨ mark = 'B' then some 2
  else if mark = 'o' ∨ mark = 'O' then some 8
  else none

/-- An integer with a base prefix. In binary the prefix may stand twice. -/
def prefixedInt? : Text → Option Int
  | '0' :: mark :: digits => do
    let base ← basePrefix? mark
    guard (digits.all fun c => (Number.hexValue? c).isSome)
    let digits := match base, digits with
      | 2, '0' :: 'b' :: rest => rest
      | 2, '0' :: 'B' :: rest => rest
      | _, digits => digits
    let n ← Number.readBase? base digits
    return n
  | _ => none

/-- The number that a text spells. Whole numerals, and numerals without a point whose value is
whole, are integers. One final line feed is allowed. -/
def coerceNumber (s : Text) : Except DigitError (Option Value) :=
  let body := if s.getLast? = some '\n' then s.dropLast else s
  match Number.numeral? body with
  | some n =>
    if n.isWhole then n.toInt.map fun i => some (.int i)
    else
      let x := n.toFloat
      match if n.hasPoint then none else Number.toInt? x with
      | some i => .ok (some (.int i))
      | none => .ok (some (.float x))
  | none => .ok ((prefixedInt? body).map .int)

/-- The value of literal text: a quoted string without its first and last character, a truth value,
a number, or else the text itself without the blanks around it. -/
def coerceValue (raw : Text) : Except DigitError Value :=
  let s := strip raw
  if s.head?.any isQuote then .ok (.text s.tail.dropLast)
  else if s = "true".toList then .ok (.bool true)
  else if s = "false".toList then .ok (.bool false)
  else (coerceNumber s).map fun number? => number?.getD (.text s)

/-- An entry: a word, a colon, blanks, and its raw value. The blanks leave one character that is no
line feed to the value if nothing else does. -/
def entryShape : Shape (Text × Text) := fun at_ => do
  guard at_.atWordStart
  let (key, rest) ← word? at_.rest
  let rest ← after? [':'] rest
  let (raw, rest) ←
    afterMost isBlank (run? fun c => c ≠ ',' && c ≠ '\n' && c ≠ '\x7d') rest
  return ((key, raw), at_.lengthTo rest)

/-- The entries mined from the text of an object literal; a later entry of a key replaces its
value. -/
def parseObjectLiteral (s : Text) : Except DigitError (Entries Value) := do
  let pairs ← (hits entryShape s).mapM fun (key, raw) => return (key, ← coerceValue raw)
  return Entries.ofPairs pairs

end Code

end ComponentCatalog
