import ComponentCatalog.Number.Binary

/-!
The fewest decimal digits that read back as a given double, and among those the nearest to it; and
the layouts in which such digits are written.
-/
namespace ComponentCatalog.Number

/-- The largest `d` with `10 ^ d ≤ num / den`, for positive arguments. -/
def floorLog10 (num den : Nat) : Int :=
  let guess := (floorLog2 num den * 30103).fdiv 100000
  let reaches (d : Int) : Bool :=
    let (n, k) := scaleByPower 10 den d
    n ≤ num * k
  if reaches (guess + 1) then guess + 1 else if reaches guess then guess else guess - 1

/-- The ratios that read back as `m * 2 ^ e`: from `low` to `high` over `unit`, the ends included
when `m` is even. -/
structure Basin where
  low : Nat
  value : Nat
  high : Nat
  unit : Nat
  closed : Bool

/-- Half way to both neighbours; below a power of two the neighbour is half as far. -/
def basin (m : Nat) (e : Int) : Basin :=
  let narrow := m = Nat.pow 2 52 ∧ -1074 < e
  let (scale, unit) := scaleByPower 2 1 (e - 2)
  { low := (4 * m - if narrow then 1 else 2) * scale
    value := 4 * m * scale
    high := (4 * m + 2) * scale
    unit := unit
    closed := m % 2 = 0 }

/-- `n * 10 ^ k` lies in the basin. -/
def Basin.holds (b : Basin) (n : Nat) (k : Int) : Bool :=
  let (num, den) := scaleByPower 10 n k
  let x := num * b.unit
  if b.closed then b.low * den ≤ x && x ≤ b.high * den else b.low * den < x && x < b.high * den

/-- The better of the two multiples of `10 ^ k` around the value, if one of them is in the basin. -/
def Basin.nearest? (b : Basin) (k : Int) : Option Nat :=
  let (num, den) := scaleByPower 10 b.value (-k)
  let below := num / (den * b.unit)
  let rounded := roundQuotient num (den * b.unit)
  if b.holds rounded k then some rounded
  else if b.holds below k then some below
  else if b.holds (below + 1) k then some (below + 1)
  else none

/-- Digits and the decimal exponent of the first: `d₀.d₁d₂… * 10 ^ exponent`. -/
structure Digits where
  digits : Text
  exponent : Int

/-- The digits of a positive finite double `m * 2 ^ e`. -/
def shortestOf (m : Nat) (e : Int) : Digits :=
  let b := basin m e
  let top := floorLog10 b.value b.unit
  let found := (List.range 17).findSome? fun (places : Nat) =>
    let k := top - (places : Int)
    (b.nearest? k).map fun n => (n, k)
  let (n, k) := found.getD (m, 0)
  let text := natText n
  { digits := match Text.dropEndWhile (· == '0') text with
      | [] => ['0']
      | kept => kept
    exponent := k + text.length - 1 }

/-- How doubles are written: exponents from `leastFixed` to `mostFixed` positionally with at least
one decimal place, others after an `e` with a sign and at least `exponentWidth` digits. -/
structure FloatLayout where
  leastFixed : Int
  mostFixed : Int
  exponentWidth : Nat
  infinity : Text
  negativeInfinity : Text
  notANumber : Text

namespace FloatLayout

/-- The layout of numbers in prose and in mappings. -/
def plain : FloatLayout := ⟨-4, 15, 2, "inf".toList, "-inf".toList, "nan".toList⟩

/-- The layout of numbers in a JSON document. -/
def json : FloatLayout :=
  ⟨-4, 15, 2, "Infinity".toList, "-Infinity".toList, "NaN".toList⟩

/-- The layout of numbers in a compact typed answer, which has no spelling for other values. -/
def compact : FloatLayout :=
  ⟨-5, 15, 1, "null".toList, "null".toList, "null".toList⟩

def digitsText (layout : FloatLayout) (d : Digits) : Text :=
  if layout.leastFixed ≤ d.exponent ∧ d.exponent ≤ layout.mostFixed then
    if d.exponent < 0 then
      '0' :: '.' :: List.replicate (-d.exponent - 1).toNat '0' ++ d.digits
    else
      let point := d.exponent.toNat + 1
      let whole := d.digits.take point ++ List.replicate (point - d.digits.length) '0'
      let places := d.digits.drop point
      whole ++ '.' :: if places = [] then ['0'] else places
  else
    let places := d.digits.drop 1
    let width := natText d.exponent.natAbs
    d.digits.take 1 ++ (if places = [] then [] else '.' :: places) ++
      ['e', if d.exponent < 0 then '-' else '+'] ++
      List.replicate (layout.exponentWidth - width.length) '0' ++ width

def text (layout : FloatLayout) (x : Float) : Text :=
  if x.isNaN then layout.notANumber
  else if x.isInf then if isNegative x then layout.negativeInfinity else layout.infinity
  else
    let (m, e) := magnitude x
    let body := if m = 0 then "0.0".toList else layout.digitsText (shortestOf m e)
    if isNegative x then '-' :: body else body

end FloatLayout

end ComponentCatalog.Number
