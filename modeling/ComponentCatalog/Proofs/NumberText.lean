import ComponentCatalog.Proofs.JsonGrammar
import ComponentCatalog.Proofs.NumberBounds
import ComponentCatalog.Proofs.Parts
import ComponentCatalog.Number.Shortest

/-!
The texts of numbers are numbers in the grammar of JSON: no digits begin with a zero that is not
alone, and a finite double has a text of digits in every layout.
-/
namespace ComponentCatalog

open Json.Grammar

namespace Text

theorem dropEndWhile_cons {p : Char → Bool} {c : Char} (h : p c = false) (rest : Text) :
    dropEndWhile p (c :: rest) = c :: dropEndWhile p rest := by
  rw [dropEndWhile, h]
  split
  next hnil => rw [hnil]; rfl
  next => rfl

end Text

namespace Number

theorem isDigits_zero : IsDigits ['0'] :=
  ⟨List.cons_ne_nil _ _, List.forall_mem_singleton.mpr rfl⟩

theorem isDigits_natText (n : Nat) : IsDigits (natText n) :=
  ⟨Nat.toDigits_ne_nil, fun _ hc => Nat.isDigit_of_mem_toDigits (by decide) (by decide) hc⟩

theorem head?_natText_ne_zero {n : Nat} (h : n ≠ 0) : (natText n).head? ≠ some '0' := by
  induction n using Nat.strong_induction_on with
  | _ n ih =>
    rw [natText]
    by_cases hlt : n < 10
    · rw [Nat.toDigits_of_lt_base hlt, List.head?_cons]
      interval_cases n <;> first | contradiction | decide
    · have hle : 10 ≤ n := Nat.le_of_not_lt hlt
      rw [Nat.toDigits_of_base_le (by decide) hle,
        List.head?_append_of_ne_nil _ Nat.toDigits_ne_nil]
      exact ih (n / 10) (by omega) (by omega)

theorem isWhole_natText (n : Nat) : IsWhole (natText n) := by
  by_cases h : n = 0
  · subst h
    exact Or.inl rfl
  · exact Or.inr ⟨isDigits_natText n, head?_natText_ne_zero h⟩

theorem isUnsigned_natText (n : Nat) : IsUnsigned (natText n) :=
  ⟨natText n, [], [], isWhole_natText n, Or.inl rfl, Or.inl rfl, by simp⟩

theorem isNumber_intText (n : Int) : IsNumber (intText n) := by
  cases n with
  | ofNat n => exact Or.inl (isUnsigned_natText n)
  | negSucc n => exact Or.inr ⟨_, isUnsigned_natText (n + 1), rfl⟩

/-- Digits that begin with none that is zero. -/
def Digits.IsLeading (d : Digits) : Prop := IsDigits d.digits ∧ d.digits.head? ≠ some '0'

theorem scaleByPower_num_pos {base n : Nat} (hbase : 0 < base) (hn : 0 < n) (e : Int) :
    0 < (scaleByPower base n e).1 := by
  unfold scaleByPower
  split
  · exact Nat.mul_pos hn (Nat.pow_pos hbase)
  · exact hn

theorem scaleByPower_den_pos {base : Nat} (hbase : 0 < base) (n : Nat) (e : Int) :
    0 < (scaleByPower base n e).2 := by
  unfold scaleByPower
  split
  · exact Nat.one_pos
  · exact Nat.pow_pos hbase

theorem scaleByPower_zero (base : Nat) (e : Int) : (scaleByPower base 0 e).1 = 0 := by
  unfold scaleByPower
  split
  · exact Nat.zero_mul _
  · rfl

theorem basin_low_pos {m : Nat} (h : m ≠ 0) (e : Int) : 0 < (basin m e).low := by
  apply Nat.mul_pos
  · split <;> omega
  · exact scaleByPower_num_pos (by decide) Nat.one_pos _

theorem Basin.not_holds_zero {b : Basin} (h : 0 < b.low) (k : Int) : b.holds 0 k = false := by
  have hden := scaleByPower_den_pos (by decide : 0 < 10) 0 k
  unfold Basin.holds
  simp only [scaleByPower_zero, Nat.zero_mul]
  split
  · simp [h.ne', hden.ne']
  · simp

theorem Basin.nearest?_ne_zero {b : Basin} (h : 0 < b.low) {k : Int} {n : Nat}
    (hn : b.nearest? k = some n) : n ≠ 0 := by
  rintro rfl
  have hzero := Basin.not_holds_zero h k
  unfold Basin.nearest? at hn
  simp only at hn
  split_ifs at hn with hrounded hbelow habove
  · rw [Option.some.inj hn, hzero] at hrounded
    cases hrounded
  · rw [Option.some.inj hn, hzero] at hbelow
    cases hbelow
  · cases Option.some.inj hn

/-- A text of digits without the zeros at its end. -/
theorem isLeading_of_natText {n : Nat} (h : n ≠ 0) (exponent : Int) :
    Digits.IsLeading
      { digits := match Text.dropEndWhile (· == '0') (natText n) with
          | [] => ['0']
          | kept => kept
        exponent } := by
  obtain ⟨hne, hdigits⟩ := isDigits_natText n
  have hhead := head?_natText_ne_zero h
  cases htext : natText n with
  | nil => exact absurd htext hne
  | cons c rest =>
    rw [htext] at hdigits hhead
    have hc : (c == '0') = false := by simpa using hhead
    have hprefix := Text.dropEndWhile_isPrefix (· == '0') rest
    simp only [Text.dropEndWhile_cons (p := (· == '0')) hc]
    refine ⟨⟨List.cons_ne_nil _ _, fun d hd => hdigits d ?_⟩, hhead⟩
    exact (List.cons_prefix_cons.mpr ⟨rfl, hprefix⟩).subset hd

/-- The digits of a double that is not zero. -/
theorem isLeading_shortestOf {m : Nat} (h : m ≠ 0) (e : Int) : (shortestOf m e).IsLeading := by
  unfold shortestOf
  simp only
  apply isLeading_of_natText
  cases hfound : List.findSome? _ (List.range 17) with
  | none => exact h
  | some found =>
    obtain ⟨places, -, hplaces⟩ := List.exists_of_findSome?_eq_some hfound
    obtain ⟨n, hn, rfl⟩ := Option.map_eq_some_iff.mp hplaces
    exact Basin.nearest?_ne_zero (basin_low_pos h e) hn

theorem isDigits_zeros_append (n : Nat) {ds : Text} (h : IsDigits ds) :
    IsDigits (List.replicate n '0' ++ ds) := by
  refine ⟨by simp [h.1], fun c hc => ?_⟩
  rcases List.mem_append.mp hc with hzero | hc
  · rw [List.eq_of_mem_replicate hzero]
    rfl
  · exact h.2 c hc

/-- With a digit in front that is not zero, digits are a whole part. -/
theorem isWhole_cons {c : Char} {rest : Text} (hc : c.isDigit = true) (hzero : c ≠ '0')
    (hrest : ∀ d ∈ rest, d.isDigit = true) : IsWhole (c :: rest) :=
  Or.inr ⟨⟨List.cons_ne_nil _ _, List.forall_mem_cons.mpr ⟨hc, hrest⟩⟩, by simpa using hzero⟩

theorem isFraction_of_forall {ds : Text} (h : ∀ c ∈ ds, c.isDigit = true) :
    IsFraction (if ds = [] then [] else '.' :: ds) := by
  split
  next => exact Or.inl rfl
  next hne => exact Or.inr ⟨ds, ⟨hne, h⟩, rfl⟩

/-- Digits that begin with none that is zero are a number in every layout. -/
theorem isUnsigned_digitsText (layout : FloatLayout) {d : Digits} (h : d.IsLeading) :
    IsUnsigned (layout.digitsText d) := by
  obtain ⟨digits, exponent⟩ := d
  obtain ⟨hall, hhead⟩ := h
  obtain ⟨c, rest, rfl⟩ := List.exists_cons_of_ne_nil hall.1
  obtain ⟨hc, hrest⟩ := List.forall_mem_cons.mp hall.2
  have hzero : c ≠ '0' := by simpa using hhead
  unfold FloatLayout.digitsText
  -- Three layouts: zeros behind the point, a whole part filled up with zeros, and an exponent.
  by_cases hfixed : layout.leastFixed ≤ exponent ∧ exponent ≤ layout.mostFixed
  · rw [if_pos hfixed]
    by_cases hnegative : exponent < 0
    · rw [if_pos hnegative]
      have hplaces := isDigits_zeros_append (-exponent - 1).toNat hall
      exact ⟨['0'], '.' :: _, [], Or.inl rfl, Or.inr ⟨_, hplaces, rfl⟩, Or.inl rfl, by simp⟩
    · rw [if_neg hnegative]
      simp only [List.take_succ_cons, List.drop_succ_cons]
      have hwhole : ∀ d ∈ rest.take exponent.toNat ++
          List.replicate (exponent.toNat + 1 - (c :: rest).length) '0', d.isDigit = true := by
        intro d hd
        rcases List.mem_append.mp hd with htake | hzeros
        · exact hrest d (List.mem_of_mem_take htake)
        · rw [List.eq_of_mem_replicate hzeros]
          rfl
      have hplaces : IsDigits (if rest.drop exponent.toNat = [] then ['0']
          else rest.drop exponent.toNat) := by
        split
        next => exact isDigits_zero
        next hne => exact ⟨hne, fun d hd => hrest d (List.mem_of_mem_drop hd)⟩
      exact ⟨_, '.' :: _, [], isWhole_cons hc hzero hwhole, Or.inr ⟨_, hplaces, rfl⟩, Or.inl rfl,
        (List.append_nil _).symm⟩
  · rw [if_neg hfixed]
    have hwidth := isDigits_zeros_append
      (layout.exponentWidth - (natText exponent.natAbs).length) (isDigits_natText exponent.natAbs)
    have hsign : (if exponent < 0 then '-' else '+') = '-' ∨
        (if exponent < 0 then '-' else '+') = '+' := by
      split <;> simp
    refine ⟨[c], _, 'e' :: _, isWhole_cons hc hzero (by simp), isFraction_of_forall hrest,
      Or.inr ⟨'e', [if exponent < 0 then '-' else '+'], _, Or.inl rfl, ?_, hwidth, rfl⟩, ?_⟩
    · rcases hsign with h | h <;> simp [h]
    · simp

/-- Every finite double is a number in every layout. -/
theorem isNumber_text (layout : FloatLayout) {x : Float} (h : x.isFinite = true) :
    IsNumber (layout.text x) := by
  have hclass := (isFinite_iff x).mp h
  have hnan : ¬x.isNaN = true := by
    rw [isNaN_iff, hclass]
    simp
  have hinf : ¬x.isInf = true := by
    rw [isInf_iff, hclass]
    simp
  have hbody : ∀ m e, IsUnsigned
      (if m = 0 then "0.0".toList else layout.digitsText (shortestOf m e)) := by
    intro m e
    split
    next =>
      exact ⟨['0'], ['.', '0'], [], Or.inl rfl, Or.inr ⟨['0'], isDigits_zero, rfl⟩, Or.inl rfl, rfl⟩
    next hm => exact isUnsigned_digitsText layout (isLeading_shortestOf hm e)
  unfold FloatLayout.text
  rw [if_neg hnan, if_neg hinf]
  dsimp only
  split
  next => exact Or.inr ⟨_, hbody _ _, rfl⟩
  next => exact Or.inl (hbody _ _)

/-- What is not finite is written in a document as one of three words. -/
theorem text_json_of_not_isFinite {x : Float} (h : ¬x.isFinite = true) :
    FloatLayout.json.text x = "NaN".toList ∨ FloatLayout.json.text x = "-Infinity".toList ∨
      FloatLayout.json.text x = "Infinity".toList := by
  unfold FloatLayout.text
  by_cases hnan : x.isNaN = true
  · exact Or.inl (if_pos hnan)
  · have hinf : x.isInf = true := by
      rw [isFinite_iff] at h
      rw [isNaN_iff] at hnan
      rw [isInf_iff]
      cases hclass : DoubleClass.of x <;> simp_all
    rw [if_neg hnan, if_pos hinf]
    split
    next => exact Or.inr (Or.inl rfl)
    next => exact Or.inr (Or.inr rfl)

end Number

end ComponentCatalog
