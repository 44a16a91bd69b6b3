import Mathlib
import ComponentCatalog.Number.Numeral

/-!
Numbers at the edges of their range: how doubles compare with zero, which of them are finite, from
which ratio on the nearest double is no longer finite, and which integers are not written.
-/
namespace ComponentCatalog.Number

open Float.Model

theorem le_iff (x y : Float) : x ≤ y ↔ x.toModel.unpack.le y.toModel.unpack = true :=
  decide_eq_true_iff

theorem lt_iff (x y : Float) : x < y ↔ x.toModel.unpack.lt y.toModel.unpack = true :=
  decide_eq_true_iff

theorem unpack_zero : (0 : Float).toModel.unpack = .zero .positive := rfl

/-- What does not compare as positive is no bigger than zero, unless it does not compare at all. -/
theorem not_le_zero_iff (x : Float) : ¬x ≤ 0 ↔ 0 < x ∨ x.isNaN = true := by
  rw [le_iff, lt_iff, unpack_zero]
  change _ ↔ _ ∨ UnpackedFloat.isNaN x.toModel.unpack = true
  rcases x.toModel.unpack with (_ | _) | _ | _ | ⟨(_ | _), m, e, hm⟩ <;>
    simp [UnpackedFloat.le, UnpackedFloat.lt, UnpackedFloat.compare, UnpackedFloat.isNaN]

theorem not_lt_zero_iff (x : Float) : ¬x < 0 ↔ 0 ≤ x ∨ x.isNaN = true := by
  rw [le_iff, lt_iff, unpack_zero]
  change _ ↔ _ ∨ UnpackedFloat.isNaN x.toModel.unpack = true
  rcases x.toModel.unpack with (_ | _) | _ | _ | ⟨(_ | _), m, e, hm⟩ <;>
    simp [UnpackedFloat.le, UnpackedFloat.lt, UnpackedFloat.compare, UnpackedFloat.isNaN]

theorem not_pos_of_isNaN {x : Float} (h : x.isNaN = true) : ¬0 < x := by
  change UnpackedFloat.isNaN x.toModel.unpack = true at h
  rw [lt_iff, unpack_zero]
  revert h
  rcases x.toModel.unpack with _ | _ | _ | _ <;>
    simp [UnpackedFloat.lt, UnpackedFloat.compare, UnpackedFloat.isNaN]

theorem not_nonneg_of_isNaN {x : Float} (h : x.isNaN = true) : ¬0 ≤ x := by
  change UnpackedFloat.isNaN x.toModel.unpack = true at h
  rw [le_iff, unpack_zero]
  revert h
  rcases x.toModel.unpack with _ | _ | _ | _ <;>
    simp [UnpackedFloat.le, UnpackedFloat.compare, UnpackedFloat.isNaN]

/-- The three kinds of double. -/
inductive DoubleClass where
  | finite | infinite | undefined
  deriving DecidableEq

def DoubleClass.ofUnpacked : UnpackedFloat → DoubleClass
  | .notANumber => .undefined
  | .infinity _ => .infinite
  | .zero _ | .finite .. => .finite

def DoubleClass.of (x : Float) : DoubleClass := .ofUnpacked x.toModel.unpack

theorem isFinite_iff (x : Float) : x.isFinite = true ↔ DoubleClass.of x = .finite := by
  change UnpackedFloat.isFinite x.toModel.unpack = true ↔
    DoubleClass.ofUnpacked x.toModel.unpack = _
  cases x.toModel.unpack <;> simp [UnpackedFloat.isFinite, DoubleClass.ofUnpacked]

theorem isInf_iff (x : Float) : x.isInf = true ↔ DoubleClass.of x = .infinite := by
  change UnpackedFloat.isInf x.toModel.unpack = true ↔
    DoubleClass.ofUnpacked x.toModel.unpack = _
  cases x.toModel.unpack <;> simp [UnpackedFloat.isInf, DoubleClass.ofUnpacked]

theorem isNaN_iff (x : Float) : x.isNaN = true ↔ DoubleClass.of x = .undefined := by
  change UnpackedFloat.isNaN x.toModel.unpack = true ↔
    DoubleClass.ofUnpacked x.toModel.unpack = _
  cases x.toModel.unpack <;> simp [UnpackedFloat.isNaN, DoubleClass.ofUnpacked]

section Bits

open Float.Model.UnpackedFloat (unpackExponent unpackMantissa unpackExponent_packComponents)

variable {v : BitVec Format.binary64.numBits}

/-- The class is read off the eleven bits of the exponent and the bits below them. -/
theorem ofUnpacked_unpack (v : BitVec Format.binary64.numBits) :
    DoubleClass.ofUnpacked (UnpackedFloat.unpack .binary64 v) =
      if v.toNat / 2 ^ 52 % 2 ^ 11 = 2047 then
        if v.toNat % 2 ^ 52 = 0 then .infinite else .undefined
      else .finite := by
  have hexponent : unpackExponent v = (-1#_) ↔ v.toNat / 2 ^ 52 % 2 ^ 11 = 2047 := by
    rw [BitVec.toNat_eq]
    simp [unpackExponent, BitVec.extractLsb, Nat.shiftRight_eq_div_pow]
  have hmantissa : unpackMantissa v = (0#_) ↔ v.toNat % 2 ^ 52 = 0 := by
    rw [BitVec.toNat_eq]
    simp [unpackMantissa, BitVec.extractLsb]
  simp only [UnpackedFloat.unpack, hexponent, hmantissa]
  split_ifs <;> rfl

theorem ofUnpacked_unpack_of_exponent (h : unpackExponent v ≠ (-1#_)) :
    DoubleClass.ofUnpacked (UnpackedFloat.unpack .binary64 v) = .finite := by
  simp only [UnpackedFloat.unpack, if_neg h]
  split_ifs <;> rfl

theorem exponent_unpack_le {s : UnpackedFloat.Sign} {m : Nat} {e : Int} {hm : 0 < m}
    (h : UnpackedFloat.unpack .binary64 v = .finite s m e hm) : e ≤ 971 := by
  have hbias : ((Format.binary64.exponentBias : Nat) : Int) = 1023 := rfl
  have hlt : (unpackExponent v).toNat < 2048 := (unpackExponent v).isLt
  simp only [UnpackedFloat.unpack, hbias] at h
  split_ifs at h with hones _ hzero
  · cases h
    have : (unpackExponent v).toNat = 0 := congrArg BitVec.toNat hzero
    omega
  · have hne : (unpackExponent v).toNat ≠ 2047 := fun heq => hones (BitVec.eq_of_toNat_eq heq)
    cases h
    simp
    omega

theorem unpackExponent_pack {s : UnpackedFloat.Sign} {m : Nat} {e : Int} {hm : 0 < m}
    (he : e ≤ 971) :
    unpackExponent (UnpackedFloat.pack .binary64 (.finite s m e hm)) ≠ (-1#_) := by
  have hbias : ((Format.binary64.exponentBias : Nat) : Int) = 1023 := rfl
  simp only [UnpackedFloat.pack, hbias]
  split_ifs with hover
  · norm_num at hover
    omega
  · rw [unpackExponent_packComponents]
    intro heq
    have hnat := congrArg BitVec.toNat heq
    simp at hnat hover
    omega
  · rw [unpackExponent_packComponents]
    decide

/-- Bits that are unpacked and packed again keep their class. -/
theorem ofUnpacked_repacked (v : BitVec Format.binary64.numBits) :
    DoubleClass.ofUnpacked (UnpackedFloat.unpack .binary64
        (UnpackedFloat.pack .binary64 (UnpackedFloat.unpack .binary64 v))) =
      DoubleClass.ofUnpacked (UnpackedFloat.unpack .binary64 v) := by
  rcases hu : UnpackedFloat.unpack .binary64 v with s | _ | s | ⟨s, m, e, hm⟩
  · cases s <;> rfl
  · rfl
  · cases s <;> rfl
  · rw [ofUnpacked_unpack_of_exponent (unpackExponent_pack (exponent_unpack_le hu))]
    rfl

theorem class_ofBits {n : Nat} (h : n < 2 ^ 64) :
    DoubleClass.of (Float.ofBits (UInt64.ofNat n)) =
      if n / 2 ^ 52 % 2 ^ 11 = 2047 then if n % 2 ^ 52 = 0 then .infinite else .undefined
      else .finite := by
  have hbits : (UInt64.ofNat n).toBitVec.toNat = n := by
    simp
    omega
  have hclass : DoubleClass.of (Float.ofBits (UInt64.ofNat n)) = _ := ofUnpacked_repacked _
  rw [hclass, ofUnpacked_unpack, hbits]

end Bits

theorem le_roundQuotient_iff {a b k : Nat} (hb : 0 < b) (hk : 0 < k) :
    k ≤ roundQuotient a b ↔
      (2 * k - 1) * b < 2 * a ∨ ((2 * k - 1) * b = 2 * a ∧ k % 2 = 0) := by
  obtain ⟨j, rfl⟩ : ∃ j, k = j + 1 := ⟨k - 1, by omega⟩
  have hdiv : b * (a / b) + a % b = a := Nat.div_add_mod a b
  have hrem : a % b < b := Nat.mod_lt a hb
  have hodd : 2 * (j + 1) - 1 = 2 * j + 1 := by omega
  rw [roundQuotient, hodd]
  generalize a / b = q at *
  generalize a % b = r at *
  subst hdiv
  rcases Nat.lt_trichotomy j q with hlt | rfl | hgt
  · have hmul : b * (j + 1) ≤ b * q := Nat.mul_le_mul_left b hlt
    have hleft : (2 * j + 1) * b < 2 * (b * q + r) := by nlinarith
    simp only [hleft, true_or, iff_true]
    split_ifs <;> omega
  · have hleft : (2 * j + 1) * b = 2 * (b * j) + b := by ring
    rw [hleft]
    split_ifs <;> omega
  · have hmul : b * (q + 1) ≤ b * j := Nat.mul_le_mul_left b hgt
    have hleft : 2 * (b * q + r) < (2 * j + 1) * b := by nlinarith
    have hnot : ¬(j + 1 ≤ if b < 2 * r ∨ b = 2 * r ∧ q % 2 = 1 then q + 1 else q) := by
      split_ifs <;> omega
    simp only [hnot, false_iff]
    omega

theorem scaleByPower_two (n : Nat) (e : Int) :
    0 < (scaleByPower 2 n e).2 ∧
      ((scaleByPower 2 n e).1 : ℚ) = n * 2 ^ e * (scaleByPower 2 n e).2 := by
  unfold scaleByPower
  split
  next h =>
    obtain ⟨k, rfl⟩ := Int.eq_ofNat_of_zero_le h
    simp
  next h =>
    obtain ⟨k, rfl⟩ : ∃ k : Nat, e = -k := ⟨(-e).toNat, by omega⟩
    simp

/-- The ratio in units of `2 ^ e`, rounded. -/
def rounded (num den : Nat) (e : Int) : Nat :=
  roundQuotient (scaleByPower 2 num (-e)).1 (den * (scaleByPower 2 num (-e)).2)

variable {num den : Nat}

theorem le_rounded_iff {k : Nat} {e : Int} (hden : 0 < den) (hk : 0 < k) :
    k ≤ rounded num den e ↔
      (2 * k - 1 : ℚ) * (den * 2 ^ e) < 2 * num ∨
        ((2 * k - 1 : ℚ) * (den * 2 ^ e) = 2 * num ∧ k % 2 = 0) := by
  obtain ⟨hpos, hscale⟩ := scaleByPower_two num (-e)
  rw [rounded]
  generalize (scaleByPower 2 num (-e)).1 = a at *
  generalize (scaleByPower 2 num (-e)).2 = d at *
  have hunit : (0 : ℚ) < d * 2 ^ (-e) := by positivity
  have hpower : (2 : ℚ) ^ e * 2 ^ (-e) = 1 := by
    rw [← zpow_add₀ (by norm_num)]
    simp
  have hleft : (((2 * k - 1) * (den * d) : Nat) : ℚ) =
      (2 * k - 1) * (den * 2 ^ e) * (d * 2 ^ (-e)) := by
    have hcast : ((2 * k - 1 : Nat) : ℚ) = 2 * k - 1 := by
      rw [Nat.cast_sub (by omega)]
      push_cast
      ring
    calc (((2 * k - 1) * (den * d) : Nat) : ℚ)
        = (2 * k - 1) * (den * d) * (2 ^ e * 2 ^ (-e)) := by
          rw [hpower, mul_one, Nat.cast_mul, hcast, Nat.cast_mul]
      _ = _ := by ring
  have hright : ((2 * a : Nat) : ℚ) = 2 * num * (d * 2 ^ (-e)) := by
    rw [Nat.cast_mul, hscale]
    push_cast
    ring
  rw [le_roundQuotient_iff (Nat.mul_pos hden hpos) hk, ← Nat.cast_lt (α := ℚ),
    ← Nat.cast_inj (R := ℚ), hleft, hright, mul_lt_mul_iff_left₀ hunit, mul_left_inj' hunit.ne']

theorem le_rounded {e : Int} (hden : 0 < den) (h : (den : ℚ) * 2 ^ (e + 52) ≤ num) :
    2 ^ 52 ≤ rounded num den e := by
  rw [le_rounded_iff hden (by norm_num)]
  have hunit : (0 : ℚ) < den * 2 ^ e := by positivity
  rw [zpow_add₀ (by norm_num)] at h
  norm_num at h ⊢
  left
  linarith

theorem rounded_le {e : Int} (hden : 0 < den) (h : (num : ℚ) < den * 2 ^ (e + 53)) :
    rounded num den e ≤ 2 ^ 53 := by
  by_contra hlt
  have hge := (le_rounded_iff hden (by norm_num)).mp (not_le.mp hlt : 2 ^ 53 + 1 ≤ _)
  have hunit : (0 : ℚ) < den * 2 ^ e := by positivity
  rw [zpow_add₀ (by norm_num)] at h
  norm_num at h hge
  linarith

/-- The ratio lies between two powers of two that follow each other. -/
theorem floorLog2_spec (hnum : 0 < num) (hden : 0 < den) :
    (den : ℚ) * 2 ^ floorLog2 num den ≤ num ∧ (num : ℚ) < den * 2 ^ (floorLog2 num den + 1) := by
  have hn : (2 : ℚ) ^ (num.log2 : ℤ) ≤ num := by exact_mod_cast Nat.log2_self_le hnum.ne'
  have hn' : (num : ℚ) < 2 ^ ((num.log2 : ℤ) + 1) := by exact_mod_cast Nat.lt_log2_self
  have hd : (2 : ℚ) ^ (den.log2 : ℤ) ≤ den := by exact_mod_cast Nat.log2_self_le hden.ne'
  have hd' : (den : ℚ) < 2 ^ ((den.log2 : ℤ) + 1) := by exact_mod_cast Nat.lt_log2_self
  have htwo : (2 : ℚ) ≠ 0 := by norm_num
  unfold floorLog2
  dsimp only
  -- The difference of the two logarithms is the right power, or one above it.
  set t : ℤ := num.log2 - den.log2 with ht
  obtain ⟨hpos, hscale⟩ := scaleByPower_two den t
  have hreach : (scaleByPower 2 den t).1 ≤ num * (scaleByPower 2 den t).2 ↔
      (den : ℚ) * 2 ^ t ≤ num := by
    rw [← Nat.cast_le (α := ℚ), Nat.cast_mul, hscale]
    exact mul_le_mul_iff_left₀ (by exact_mod_cast hpos)
  rw [if_congr hreach rfl rfl]
  split
  next h =>
    refine ⟨h, ?_⟩
    calc (num : ℚ) < 2 ^ ((num.log2 : ℤ) + 1) := hn'
      _ = 2 ^ (den.log2 : ℤ) * 2 ^ (t + 1) := by
        rw [← zpow_add₀ htwo]
        congr 1
        omega
      _ ≤ den * 2 ^ (t + 1) := by gcongr
  next h =>
    refine ⟨?_, ?_⟩
    · calc (den : ℚ) * 2 ^ (t - 1) ≤ 2 ^ ((den.log2 : ℤ) + 1) * 2 ^ (t - 1) := by gcongr
        _ = 2 ^ (num.log2 : ℤ) := by
          rw [← zpow_add₀ htwo]
          congr 1
          omega
        _ ≤ num := hn
    · rw [Int.sub_add_cancel]
      exact lt_of_not_ge h

/-- Half way from the largest double to the next power of two. -/
def overflow : Nat := (2 ^ 54 - 1) * 2 ^ 970

theorem overflow_mul_le_iff (num den : Nat) :
    overflow * den ≤ num ↔ (2 ^ 54 - 1) * (den * 2 ^ (970 : ℤ)) ≤ (num : ℚ) := by
  have hcast : (overflow : ℚ) = (2 ^ 54 - 1) * 2 ^ (970 : ℤ) := by
    rw [overflow, Nat.cast_mul, Nat.cast_sub Nat.one_le_two_pow, Nat.cast_pow, Nat.cast_pow]
    rfl
  rw [← Nat.cast_le (α := ℚ), Nat.cast_mul, hcast, mul_assoc, mul_comm (den : ℚ)]

/-- A power of two in the unit of the bound. -/
theorem two_zpow_add_970 (k : ℕ) : (2 : ℚ) ^ (k + 970 : ℤ) = 2 ^ k * 2 ^ (970 : ℤ) := by
  rw [zpow_add₀ (by norm_num), zpow_natCast]

theorem le_rounded_top_iff (hden : 0 < den) :
    2 ^ 53 ≤ rounded num den 971 ↔ overflow * den ≤ num := by
  have hpower : (2 : ℚ) ^ (971 : ℤ) = 2 ^ 1 * 2 ^ (970 : ℤ) := two_zpow_add_970 1
  rw [le_rounded_iff hden (by norm_num), and_iff_left (by norm_num), ← le_iff_lt_or_eq,
    overflow_mul_le_iff, hpower]
  generalize (2 : ℚ) ^ (970 : ℤ) = u
  norm_num
  constructor <;> intro h <;> linarith

theorem overflow_mul_le (h : (den : ℚ) * 2 ^ (1024 : ℤ) ≤ num) : overflow * den ≤ num := by
  have hunit : (0 : ℚ) ≤ den * 2 ^ (970 : ℤ) :=
    mul_nonneg (Nat.cast_nonneg den) (zpow_nonneg (by norm_num) _)
  have hpower : (2 : ℚ) ^ (1024 : ℤ) = 2 ^ 54 * 2 ^ (970 : ℤ) := two_zpow_add_970 54
  rw [overflow_mul_le_iff]
  rw [hpower] at h
  generalize (2 : ℚ) ^ (970 : ℤ) = u at *
  norm_num at h ⊢
  linarith

theorem lt_overflow_mul (h : (num : ℚ) < den * 2 ^ (1023 : ℤ)) : ¬overflow * den ≤ num := by
  have hunit : (0 : ℚ) ≤ den * 2 ^ (970 : ℤ) :=
    mul_nonneg (Nat.cast_nonneg den) (zpow_nonneg (by norm_num) _)
  have hpower : (2 : ℚ) ^ (1023 : ℤ) = 2 ^ 53 * 2 ^ (970 : ℤ) := two_zpow_add_970 53
  rw [overflow_mul_le_iff, not_le]
  rw [hpower] at h
  generalize (2 : ℚ) ^ (970 : ℤ) = u at *
  norm_num at h ⊢
  linarith

/-- The bits are those of infinity from half way between the largest double and the next power of
two on. -/
theorem ratioBits_eq_iff (hnum : 0 < num) (hden : 0 < den) :
    ratioBits num den = 2047 * 2 ^ 52 ↔ overflow * den ≤ num := by
  obtain ⟨hlow, hhigh⟩ := floorLog2_spec hnum hden
  have hbits : ratioBits num den =
      min ((max (floorLog2 num den - 52) (-1074) + 1074).toNat * 2 ^ 52 +
        rounded num den (max (floorLog2 num den - 52) (-1074))) (2047 * 2 ^ 52) := rfl
  rw [hbits, min_eq_right_iff]
  generalize floorLog2 num den = t at *
  have hscale {e e' : ℤ} (h : e ≤ e') : (den : ℚ) * 2 ^ e ≤ den * 2 ^ e' :=
    mul_le_mul_of_nonneg_left (zpow_le_zpow_right₀ (by norm_num) h) (Nat.cast_nonneg den)
  -- Only between `2 ^ 1023` and `2 ^ 1024` does the rounding decide.
  rcases lt_trichotomy t 1023 with hsmall | rfl | hlarge
  · have hrounded : rounded num den (max (t - 52) (-1074)) ≤ 2 ^ 53 :=
      rounded_le hden (hhigh.trans_le (hscale (by omega)))
    have hlt := lt_overflow_mul (hhigh.trans_le (hscale (by omega : t + 1 ≤ 1023)))
    omega
  · have htop : max ((1023 : ℤ) - 52) (-1074) = 971 := by norm_num
    rw [htop, ← le_rounded_top_iff hden]
    omega
  · have hrounded : 2 ^ 52 ≤ rounded num den (max (t - 52) (-1074)) :=
      le_rounded hden ((hscale (by omega)).trans hlow)
    have hle := overflow_mul_le ((hscale (by omega : 1024 ≤ t)).trans hlow)
    omega

theorem ratioBits_le (num den : Nat) : ratioBits num den ≤ 2047 * 2 ^ 52 := min_le_right _ _

/-- A ratio has a nearest double, which is finite below the overflow. -/
theorem class_ofRatio (negative : Bool) (hden : 0 < den) :
    DoubleClass.of (ofRatio negative num den) =
      if overflow * den ≤ num then .infinite else .finite := by
  have hbound := ratioBits_le num den
  have hoverflow : 0 < overflow := by
    rw [overflow]
    positivity
  rw [ofRatio, class_ofBits]
  · have hpow : Nat.pow 2 63 = 2 ^ 63 := rfl
    rw [hpow]
    by_cases hnum : num = 0
    · have hlt : ¬overflow * den ≤ num := by
        have := Nat.mul_pos hoverflow hden
        omega
      simp only [hnum, if_true, if_neg (hnum ▸ hlt)]
      cases negative <;> rfl
    · have hiff := ratioBits_eq_iff (Nat.pos_of_ne_zero hnum) hden
      rw [if_neg hnum, if_congr hiff.symm rfl rfl]
      generalize ratioBits num den = bits at *
      cases negative <;> split_ifs <;> first | rfl | omega
  · have hpow : Nat.pow 2 63 = 2 ^ 63 := rfl
    rw [hpow]
    split_ifs <;> omega

/-- An integer has a double unless it is past the largest one. -/
theorem ofInt?_eq_none_iff (n : Int) : ofInt? n = none ↔ overflow ≤ n.natAbs := by
  have hclass := @class_ofRatio n.natAbs 1 (decide (n < 0)) Nat.one_pos
  rw [Nat.mul_one] at hclass
  unfold ofInt?
  dsimp only
  split
  next h =>
    rw [isInf_iff, hclass] at h
    simpa using h
  next h =>
    rw [isInf_iff, hclass] at h
    simpa using h

theorem isNaN_ofRatio (negative : Bool) (hden : 0 < den) :
    (ofRatio negative num den).isNaN = false := by
  rw [← Bool.not_eq_true, isNaN_iff, class_ofRatio negative hden]
  split_ifs <;> decide

theorem isNaN_of_ofInt? {n : Int} {x : Float} (h : ofInt? n = some x) : x.isNaN = false := by
  unfold ofInt? at h
  dsimp only at h
  split at h
  · cases h
  · cases h
    exact isNaN_ofRatio _ Nat.one_pos

theorem isNaN_ofDecimal (negative : Bool) (digits : Nat) (exponent : Int) :
    (ofDecimal negative digits exponent).isNaN = false := by
  unfold ofDecimal
  dsimp only
  split_ifs
  · exact isNaN_ofRatio negative Nat.one_pos
  · exact isNaN_ofRatio negative Nat.one_pos
  · refine isNaN_ofRatio negative ?_
    unfold scaleByPower
    split_ifs
    · exact Nat.one_pos
    · exact Nat.pow_pos (by norm_num)

/-- The integer has more digits than are written. -/
def IsLong (n : Int) : Prop := digitLimit < (natText n.natAbs).length

theorem isLong_iff (n : Int) : IsLong n ↔ Nat.pow 10 digitLimit ≤ n.natAbs := by
  have hlength := Nat.length_toDigits_le_iff (b := 10) (n := n.natAbs) (k := digitLimit)
    (by decide) (by decide)
  rw [IsLong, natText, ← not_le, hlength, not_lt, Nat.pow_eq]

theorem not_isLong_of_le {m n : Int} (hle : m.natAbs ≤ n.natAbs) (h : ¬IsLong n) : ¬IsLong m := by
  rw [isLong_iff] at h ⊢
  exact fun hm => h (hm.trans hle)

theorem writeInt_of_isLong {n : Int} (h : IsLong n) : writeInt n = .error .writing :=
  if_pos ((isLong_iff n).mp h)

theorem writeInt_of_not_isLong {n : Int} (h : ¬IsLong n) : writeInt n = .ok (intText n) :=
  if_neg (mt (isLong_iff n).mpr h)

end ComponentCatalog.Number
