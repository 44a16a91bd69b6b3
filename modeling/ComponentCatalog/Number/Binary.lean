import ComponentCatalog.Number.Integer

/-!
Double-precision numbers as exact ratios. `ofRatio` rounds a ratio of naturals to the nearest
double, a tie to the even one; `magnitude` is the other direction.
-/
namespace ComponentCatalog.Number

/-- The ratio `n * 2 ^ e` as a numerator and a denominator. -/
def scaleByPower (base n : Nat) (e : Int) : Nat × Nat :=
  if 0 ≤ e then (n * Nat.pow base e.toNat, 1) else (n, Nat.pow base (-e).toNat)

/-- The quotient rounded to the nearest integer, a tie to the even one. -/
def roundQuotient (num den : Nat) : Nat :=
  let q := num / den
  let twice := 2 * (num % den)
  if den < twice ∨ (den = twice ∧ q % 2 = 1) then q + 1 else q

/-- The largest `t` with `2 ^ t ≤ num / den`, for positive arguments. -/
def floorLog2 (num den : Nat) : Int :=
  let t : Int := num.log2 - den.log2
  let (n, d) := scaleByPower 2 den t
  if n ≤ num * d then t else t - 1

/-- The bits of the double nearest to a positive ratio; past the largest they are infinity's. -/
def ratioBits (num den : Nat) : Nat :=
  let e := max (floorLog2 num den - 52) (-1074)
  let (n, d) := scaleByPower 2 num (-e)
  min ((e + 1074).toNat * Nat.pow 2 52 + roundQuotient n (den * d)) (2047 * Nat.pow 2 52)

/-- The double nearest to `num / den`, with the given sign. -/
def ofRatio (negative : Bool) (num den : Nat) : Float :=
  let bits := if num = 0 then 0 else ratioBits num den
  Float.ofBits (UInt64.ofNat (bits + if negative then Nat.pow 2 63 else 0))

/-- The double nearest to `digits * 10 ^ exponent`. Past twenty places beyond the range of doubles
on either side the power of ten is not computed. -/
def ofDecimal (negative : Bool) (digits : Nat) (exponent : Int) : Float :=
  let places : Int := (natText digits).length + exponent
  if digits = 0 ∨ places < -344 then ofRatio negative 0 1
  else if 330 < places then ofRatio negative (Nat.pow 10 330) 1
  else
    let (num, den) := scaleByPower 10 digits exponent
    ofRatio negative num den

/-- The double nearest to an integer; `none` past the largest. -/
def ofInt? (n : Int) : Option Float :=
  let x := ofRatio (n < 0) n.natAbs 1
  if x.isInf then none else some x

def isNegative (x : Float) : Bool := x.toBits.toNat / Nat.pow 2 63 = 1

/-- A finite double without its sign, as `significand * 2 ^ exponent`. -/
def magnitude (x : Float) : Nat × Int :=
  let bits := x.toBits.toNat % Nat.pow 2 63
  let biased : Nat := bits / Nat.pow 2 52
  let fraction := bits % Nat.pow 2 52
  if biased = 0 then (fraction, -1074) else (fraction + Nat.pow 2 52, (biased : Int) - 1075)

/-- The integer that a finite double is, if it is one. -/
def toInt? (x : Float) : Option Int :=
  if x.isFinite then
    let (m, e) := magnitude x
    let (num, den) := scaleByPower 2 m e
    if num % den = 0 then some (applySign (isNegative x) (num / den)) else none
  else none

end ComponentCatalog.Number
