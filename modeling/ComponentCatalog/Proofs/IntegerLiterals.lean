import Mathlib.Data.List.Induction
import ComponentCatalog.Proofs.Literals

/-!
Integers as they are written in text, in decimal and in the bases that have a mark. A literal is
read as the number that its digits denote, whatever its length; behind a mark, digits that are not
all below the base leave the literal a text, except that the mark of binary may stand twice.
-/
namespace ComponentCatalog

namespace Number

/-- The character is the digit of a value below sixteen, a letter being small or capital. -/
def IsDigitOf (c : Char) (d : Nat) : Prop :=
  d < 16 ∧ (c = Nat.digitChar d ∨ c = (Nat.digitChar d).toUpper)

instance (c : Char) (d : Nat) : Decidable (IsDigitOf c d) := inferInstanceAs (Decidable (_ ∧ _))

/-- The digits denote the number in the base, the most significant digit first. -/
inductive Denotes (base : Nat) : Text → Nat → Prop where
  | digit {c : Char} {d : Nat} : IsDigitOf c d → d < base → Denotes base [c] d
  | more {ds : Text} {n : Nat} {c : Char} {d : Nat} :
      Denotes base ds n → IsDigitOf c d → d < base → Denotes base (ds ++ [c]) (n * base + d)

variable {base n d : Nat} {c : Char} {ds : Text}

theorem toNat_lt_of_hexValue? (h : hexValue? c = some d) : c.toNat < 103 := by
  unfold hexValue? at h
  split at h
  next hdigit =>
    have hlast : c.toNat ≤ 57 := of_decide_eq_true (Bool.and_eq_true_iff.mp hdigit).2
    omega
  next =>
    split at h
    next hsmall =>
      have hlast : c.toNat ≤ 102 := hsmall.2
      omega
    next =>
      split at h
      next hcapital =>
        have hlast : c.toNat ≤ 70 := hcapital.2
        omega
      next => cases h

theorem hexValue?_eq_some_iff : hexValue? c = some d ↔ IsDigitOf c d := by
  constructor
  · intro h
    have hcodes : ∀ code < 103, ∀ d ∈ hexValue? (Char.ofNat code), IsDigitOf (Char.ofNat code) d := by
      decide
    have hdigit := hcodes c.toNat (toNat_lt_of_hexValue? h) d
    rw [Char.ofNat_toNat] at hdigit
    exact hdigit h
  · rintro ⟨hd, rfl | rfl⟩
    · revert d
      decide
    · revert d
      decide

theorem filter_hexValue?_eq_some_iff :
    (hexValue? c).filter (· < base) = some d ↔ IsDigitOf c d ∧ d < base := by
  rw [Option.filter_eq_some_iff, hexValue?_eq_some_iff, decide_eq_true_iff]

theorem readBase?_singleton (base : Nat) (c : Char) :
    readBase? base [c] = (hexValue? c).filter (· < base) := by
  unfold readBase?
  simp only [ne_eq, List.cons_ne_nil, not_false_eq_true, guard_true, List.mapM_cons, List.mapM_nil]
  cases (hexValue? c).filter (· < base) with
  | none => rfl
  | some d => simp [ofDigits]

theorem readBase?_concat (hne : ds ≠ []) (c : Char) : readBase? base (ds ++ [c]) =
    (readBase? base ds).bind fun n => ((hexValue? c).filter (· < base)).map (n * base + ·) := by
  unfold readBase?
  simp only [ne_eq, List.append_eq_nil_iff, hne, false_and, not_false_eq_true, guard_true,
    List.mapM_append, List.mapM_cons, List.mapM_nil]
  cases ds.mapM fun c => (hexValue? c).filter (· < base) with
  | none => rfl
  | some values =>
    cases (hexValue? c).filter (· < base) with
    | none => rfl
    | some d => simp [ofDigits]

/-- Digits are read as a number of a base exactly if they denote it. -/
theorem readBase?_eq_some_iff : readBase? base ds = some n ↔ Denotes base ds n := by
  constructor
  · intro h
    induction ds using List.reverseRecOn generalizing n with
    | nil => cases h
    | append_singleton ds c ih =>
      by_cases hne : ds = []
      · subst hne
        rw [List.nil_append, readBase?_singleton, filter_hexValue?_eq_some_iff] at h
        exact .digit h.1 h.2
      · rw [readBase?_concat hne, Option.bind_eq_some_iff] at h
        obtain ⟨m, hm, hlast⟩ := h
        obtain ⟨d, hd, rfl⟩ := Option.map_eq_some_iff.mp hlast
        obtain ⟨hdigit, hlt⟩ := filter_hexValue?_eq_some_iff.mp hd
        exact .more (ih hm) hdigit hlt
  · intro h
    induction h with
    | digit hdigit hlt =>
      rw [readBase?_singleton]
      exact filter_hexValue?_eq_some_iff.mpr ⟨hdigit, hlt⟩
    | @more ds n c d hds hdigit hlt ih =>
      have hne : ds ≠ [] := by
        rintro rfl
        cases ih
      rw [readBase?_concat hne, ih, Option.bind_some,
        filter_hexValue?_eq_some_iff.mpr ⟨hdigit, hlt⟩, Option.map_some]

/-- Text denotes a number in a base exactly if it has digits and all of them are below the base. -/
theorem exists_denotes_iff :
    (∃ n, Denotes base ds n) ↔ ds ≠ [] ∧ ∀ c ∈ ds, ∃ d < base, IsDigitOf c d := by
  constructor
  · rintro ⟨n, h⟩
    induction h with
    | digit hdigit hlt =>
      exact ⟨List.cons_ne_nil _ _, List.forall_mem_singleton.mpr ⟨_, hlt, hdigit⟩⟩
    | more _ hdigit hlt ih =>
      refine ⟨by simp, List.forall_mem_append.mpr ⟨ih.2, ?_⟩⟩
      exact List.forall_mem_singleton.mpr ⟨_, hlt, hdigit⟩
  · rintro ⟨hne, h⟩
    induction ds using List.reverseRecOn with
    | nil => exact absurd rfl hne
    | append_singleton ds c ih =>
      obtain ⟨hds, hc⟩ := List.forall_mem_append.mp h
      obtain ⟨d, hlt, hdigit⟩ := hc c (List.mem_singleton_self c)
      by_cases hnil : ds = []
      · subst hnil
        exact ⟨d, .digit hdigit hlt⟩
      · obtain ⟨n, hn⟩ := ih hnil hds
        exact ⟨_, .more hn hdigit hlt⟩

/-- The digits that a number is printed with denote it. -/
theorem denotes_toDigits (hone : 1 < base) (hbase : base ≤ 16) (n : Nat) :
    Denotes base (Nat.toDigits base n) n := by
  induction n using Nat.strong_induction_on with
  | _ n ih =>
    by_cases hlt : n < base
    · rw [Nat.toDigits_of_lt_base hlt]
      exact .digit ⟨by omega, .inl rfl⟩ hlt
    · have hle : base ≤ n := Nat.le_of_not_lt hlt
      have hless : n / base < n := Nat.div_lt_self (by omega) hone
      have hdigit : n % base < base := Nat.mod_lt n (by omega)
      have hmore := Denotes.more (ih (n / base) hless) ⟨by omega, .inl rfl⟩ hdigit
      rw [Nat.mul_comm, Nat.div_add_mod] at hmore
      rwa [Nat.toDigits_of_base_le hone hle]

/-- Nor does it matter which letters are capitals. -/
theorem Denotes.map_toUpper (h : Denotes base ds n) : Denotes base (ds.map Char.toUpper) n := by
  have hupper {c : Char} {d : Nat} (hdigit : IsDigitOf c d) : IsDigitOf c.toUpper d := by
    obtain ⟨hd, rfl | rfl⟩ := hdigit
    · exact ⟨hd, .inr rfl⟩
    · refine ⟨hd, .inr ?_⟩
      revert d
      decide
  induction h with
  | digit hdigit hlt => exact .digit (hupper hdigit) hlt
  | more _ hdigit hlt ih =>
    rw [List.map_append]
    exact .more ih (hupper hdigit) hlt

end Number

namespace Code

open Text Number

variable {base n : Nat} {mark : Char} {ds s : Text}

/-- Decimal digits that denote a number are ASCII digits of that value. -/
theorem decimal_of_denotes (h : Denotes 10 ds n) :
    ds ≠ [] ∧ (∀ c ∈ ds, c.isDigit = true) ∧ ofDigits 10 (digitsOf ds) = n := by
  have hdecimal {c : Char} {d : Nat} (hdigit : IsDigitOf c d) (hlt : d < 10) :
      c.isDigit = true ∧ c.toNat - 48 = d := by
    obtain ⟨-, rfl | rfl⟩ := hdigit
    · revert d
      decide
    · revert d
      decide
  induction h with
  | digit hdigit hlt =>
    obtain ⟨hc, hvalue⟩ := hdecimal hdigit hlt
    refine ⟨List.cons_ne_nil _ _, List.forall_mem_singleton.mpr hc, ?_⟩
    simp [digitsOf, ofDigits, hvalue]
  | more _ hdigit hlt ih =>
    obtain ⟨hc, hvalue⟩ := hdecimal hdigit hlt
    obtain ⟨-, hds, hn⟩ := ih
    refine ⟨by simp, List.forall_mem_append.mpr ⟨hds, List.forall_mem_singleton.mpr hc⟩, ?_⟩
    rw [← hn]
    simp [digitsOf, ofDigits, hvalue]

/-- A text with a digit that begins with no quote is read as a number if it is one. -/
theorem coerceValue_of_digit (hstrip : strip s = s) (hhead : s.head?.any isQuote = false)
    (hdigit : ∃ c ∈ s, c.isDigit = true) :
    coerceValue s = (coerceNumber s).map fun number? => number?.getD (.text s) := by
  apply coerceValue_eq_map hstrip hhead
  have hwords : ∀ word ∈ ["true".toList, "false".toList], ∀ c ∈ word, c.isDigit = false := by decide
  obtain ⟨c, hc, hdigit⟩ := hdigit
  intro hmem
  exact Bool.false_ne_true ((hwords s hmem c hc).symm.trans hdigit)

/-- The signs of an integer, with whether it is negative. -/
def signs : List (Text × Bool) := [([], false), (['+'], false), (['-'], true)]

theorem numeral?_signed {sign : Text} {negative : Bool} (hsign : (sign, negative) ∈ signs)
    (hne : ds ≠ []) (hds : ∀ c ∈ ds, c.isDigit = true) :
    numeral? (sign ++ ds) = some ⟨negative, digitsOf ds, 0, false, none⟩ := by
  simp only [signs, List.mem_cons, Prod.mk.injEq, List.not_mem_nil, or_false] at hsign
  rcases hsign with ⟨rfl, rfl⟩ | ⟨rfl, rfl⟩ | ⟨rfl, rfl⟩
  · exact numeral?_digits false hne hds
  · -- The plus sign is dropped, and digits begin with no sign.
    have hsigned : signed ds = (false, ds) :=
      signed_sign false ⟨head?_of_digits hds rfl, head?_of_digits hds rfl⟩
    have hplus : signed ('+' :: ds) = (false, ds) := rfl
    have hplain := numeral?_digits false hne hds
    unfold numeral? at hplain ⊢
    rw [List.singleton_append, hplus]
    rwa [if_neg Bool.false_ne_true, List.nil_append, hsigned] at hplain
  · exact numeral?_digits true hne hds

/-- Neither blanks nor quotes are characters of an integer. -/
theorem solid_of_signed {sign : Text} {negative : Bool} (hsign : (sign, negative) ∈ signs)
    (hds : ∀ c ∈ ds, c.isDigit = true) :
    ∀ c ∈ sign ++ ds, isBlank c = false ∧ isQuote c = false := by
  have hmarks : ∀ entry ∈ signs, ∀ c ∈ entry.1, isBlank c = false ∧ isQuote c = false := by decide
  intro c hmem
  rcases List.mem_append.mp hmem with hmem | hmem
  · exact hmarks _ hsign c hmem
  · have hdigit := hds c hmem
    refine ⟨isBlank_of_isWord (isWord_of_isDigit hdigit), ?_⟩
    unfold isQuote
    rw [Bool.or_eq_false_iff, beq_eq_false_iff_ne, beq_eq_false_iff_ne]
    constructor <;> rintro rfl <;> cases hdigit

/-- Decimal digits within the limit are read as the number that they denote, with its sign and with
blanks around it. -/
theorem coerceValue_signed {sign lead trail : Text} {negative : Bool}
    (hsign : (sign, negative) ∈ signs) (h : Denotes 10 ds n) (hlimit : ds.length ≤ digitLimit)
    (hlead : ∀ c ∈ lead, isBlank c = true) (htrail : ∀ c ∈ trail, isBlank c = true) :
    coerceValue (lead ++ (sign ++ ds ++ trail)) = .ok (.int (if negative then -n else n)) := by
  obtain ⟨hne, hds, hvalue⟩ := decimal_of_denotes h
  have hsolid := solid_of_signed hsign hds
  have hstrip : strip (sign ++ ds) = sign ++ ds := strip_eq_self fun c hc => (hsolid c hc).1
  have hhead : (sign ++ ds).head?.any isQuote = false := by
    cases hfirst : (sign ++ ds).head? with
    | none => rfl
    | some c => exact (hsolid c (List.mem_of_mem_head? hfirst)).2
  have hdigit : ∃ c ∈ sign ++ ds, c.isDigit = true := by
    obtain ⟨c, hc⟩ := List.exists_mem_of_ne_nil ds hne
    exact ⟨c, List.mem_append_right _ hc, hds c hc⟩
  have hblanks : strip (lead ++ (sign ++ ds ++ trail)) = strip (sign ++ ds) := by
    rw [strip_blank_append hlead, strip_append_of_blank htrail]
  rw [coerceValue_of_strip hblanks, coerceValue_of_digit hstrip hhead hdigit,
    coerceNumber_digits hstrip (numeral?_signed hsign hne hds) hlimit, hvalue]
  rfl

theorem strip_intText (n : Int) : strip (intText n) = intText n := by
  have hsign : ((if decide (n < 0) then ['-'] else []), decide (n < 0)) ∈ signs := by
    cases decide (n < 0) <;> decide
  have hsolid := solid_of_signed hsign fun c (hc : c ∈ natText n.natAbs) =>
    Nat.isDigit_of_mem_toDigits (by decide) (by decide) hc
  rw [intText_eq]
  exact strip_eq_self fun c hc => (hsolid c hc).1

/-- The marks of the bases. -/
def marks : List (Char × Nat) := [('x', 16), ('X', 16), ('b', 2), ('B', 2), ('o', 8), ('O', 8)]

/-- In binary a mark stands once more before the digits. -/
def Doubled (base : Nat) (ds : Text) (n : Nat) : Prop :=
  base = 2 ∧ ∃ again rest, (again, 2) ∈ marks ∧ ds = '0' :: again :: rest ∧ Denotes 2 rest n

/-- The digits that are read: without a mark that stands once more in binary. -/
def undoubled : (base : Nat) → (ds : Text) → Text
  | 2, '0' :: 'b' :: rest => rest
  | 2, '0' :: 'B' :: rest => rest
  | _, ds => ds

theorem prefixedInt?_mark (hmark : (mark, base) ∈ marks) (hds : ∀ c ∈ ds, ∃ d, IsDigitOf c d) :
    prefixedInt? ('0' :: mark :: ds) = (readBase? base (undoubled base ds)).map Int.ofNat := by
  have hbases : ∀ entry ∈ marks, basePrefix? entry.1 = some entry.2 := by decide
  have hbase : basePrefix? mark = some base := hbases _ hmark
  have hall : (ds.all fun c => (hexValue? c).isSome) = true := by
    rw [List.all_eq_true]
    intro c hc
    obtain ⟨d, hd⟩ := hds c hc
    rw [hexValue?_eq_some_iff.mpr hd]
    rfl
  unfold prefixedInt?
  simp only [hbase, hall, Option.bind_eq_bind, Option.bind_some, guard_true]
  exact Option.map_eq_bind.symm

/-- A literal with a mark is no decimal numeral. -/
theorem numeral?_mark (hmark : (mark, base) ∈ marks) (ds : Text) :
    numeral? ('0' :: mark :: ds) = none := by
  have hmarks : ∀ entry ∈ marks,
      isDecimal entry.1 = false ∧ entry.1 ≠ '.' ∧ ¬(entry.1 = 'e' ∨ entry.1 = 'E') := by decide
  obtain ⟨hdecimal, hpoint, hexponent⟩ := hmarks _ hmark
  have hdigits : leadingDigits ('0' :: mark :: ds) = ([0], mark :: ds) :=
    leadingDigits_append (u := ['0']) (by decide) (mark :: ds) hdecimal
  have hsigned : signed ('0' :: mark :: ds) = (false, '0' :: mark :: ds) := rfl
  simp [numeral?, hsigned, hdigits, hpoint, exponent?, hexponent]

theorem isBlank_of_isDigitOf {c : Char} {d : Nat} (h : IsDigitOf c d) : isBlank c = false := by
  obtain ⟨hd, rfl | rfl⟩ := h
  · revert d
    decide
  · revert d
    decide

/-- A literal with a mark is read as the number of its digits, if they have one. -/
theorem coerceValue_mark (hmark : (mark, base) ∈ marks) (hds : ∀ c ∈ ds, ∃ d, IsDigitOf c d) :
    coerceValue ('0' :: mark :: ds) =
      .ok (((readBase? base (undoubled base ds)).map fun n => Value.int n).getD
        (.text ('0' :: mark :: ds))) := by
  have hmarks : ∀ entry ∈ marks, isBlank entry.1 = false := by decide
  have hstrip : strip ('0' :: mark :: ds) = '0' :: mark :: ds := by
    apply strip_eq_self
    intro c hc
    rcases List.mem_cons.mp hc with rfl | hc
    · rfl
    · rcases List.mem_cons.mp hc with rfl | hc
      · have hblank := hmarks _ hmark
        exact hblank
      · obtain ⟨d, hd⟩ := hds c hc
        exact isBlank_of_isDigitOf hd
  have hhead : ('0' :: mark :: ds).head?.any isQuote = false := rfl
  have hzero : ∃ c ∈ '0' :: mark :: ds, c.isDigit = true := ⟨'0', List.mem_cons_self, by decide⟩
  rw [coerceValue_of_digit hstrip hhead hzero, coerceNumber, coerceNumber_of_strip hstrip,
    numeral?_mark hmark]
  dsimp only
  rw [prefixedInt?_mark hmark hds]
  cases readBase? base (undoubled base ds) <;> rfl

theorem undoubled_cases (base : Nat) (ds : Text) :
    undoubled base ds = ds ∨ base = 2 ∧ ∃ again rest, (again, 2) ∈ marks ∧
      ds = '0' :: again :: rest ∧ undoubled base ds = rest := by
  unfold undoubled
  split
  · exact .inr ⟨rfl, 'b', _, by decide, rfl, rfl⟩
  · exact .inr ⟨rfl, 'B', _, by decide, rfl, rfl⟩
  · exact .inl rfl

/-- A mark of binary is no binary digit. -/
theorem not_denotes_of_mark {again : Char} (hagain : (again, 2) ∈ marks) (hmem : again ∈ ds)
    (n : Nat) : ¬Denotes 2 ds n := by
  have hlarge : ∀ d < 2, ∀ entry ∈ marks, entry.2 = 2 → ¬IsDigitOf entry.1 d := by decide
  intro h
  obtain ⟨d, hlt, hdigit⟩ := (exists_denotes_iff.mp ⟨n, h⟩).2 again hmem
  exact hlarge d hlt _ hagain rfl hdigit

theorem undoubled_of_denotes (h : Denotes base ds n) : undoubled base ds = ds := by
  rcases undoubled_cases base ds with hsame | ⟨rfl, again, rest, hagain, rfl, -⟩
  · exact hsame
  · exact absurd h (not_denotes_of_mark hagain (by simp) n)

theorem Doubled.undoubled (h : Doubled base ds n) :
    base = 2 ∧ Denotes 2 (undoubled base ds) n ∧ ∀ m, ¬Denotes base ds m := by
  obtain ⟨rfl, again, rest, hagain, rfl, hrest⟩ := h
  have hletter : again = 'b' ∨ again = 'B' := by simpa [marks] using hagain
  refine ⟨rfl, ?_, not_denotes_of_mark hagain (by simp)⟩
  rcases hletter with rfl | rfl <;> exact hrest

/-- Nothing else is read as a number. -/
theorem readBase?_undoubled_eq_none (h : ∀ n, ¬Denotes base ds n ∧ ¬Doubled base ds n) :
    readBase? base (undoubled base ds) = none := by
  rw [Option.eq_none_iff_forall_ne_some]
  intro n hn
  rw [readBase?_eq_some_iff] at hn
  rcases undoubled_cases base ds with hsame | ⟨rfl, again, rest, hagain, hds, hrest⟩
  · rw [hsame] at hn
    exact (h n).1 hn
  · rw [hrest] at hn
    exact (h n).2 ⟨rfl, again, rest, hagain, hds, hn⟩

theorem coerceValue_of_denotes (hmark : (mark, base) ∈ marks) (h : Denotes base ds n) :
    coerceValue ('0' :: mark :: ds) = .ok (.int n) := by
  have hds : ∀ c ∈ ds, ∃ d, IsDigitOf c d := by
    intro c hc
    obtain ⟨d, -, hdigit⟩ := (exists_denotes_iff.mp ⟨n, h⟩).2 c hc
    exact ⟨d, hdigit⟩
  rw [coerceValue_mark hmark hds, undoubled_of_denotes h, readBase?_eq_some_iff.mpr h]
  rfl

/-- An integer is read by the value of its digits. Digits denote a number in a base if all of them
are below it. In decimal they are read with a sign and with blanks around them, within the limit of
digits; behind the mark of a base they are read whatever their number. Hexadecimal digits that
denote no number in the base leave the text as it is, unless they are binary digits behind a mark
that stands twice. So an integer that is printed is read back. -/
theorem coerceValue_integerLiterals (ds : Text) (i : Int) :
    (∀ base : Nat, (∃ n, Denotes base ds n) ↔ ds ≠ [] ∧ ∀ c ∈ ds, ∃ d < base, IsDigitOf c d) ∧
    (∀ (sign : Text) (negative : Bool) (n : Nat), (sign, negative) ∈ signs →
      Denotes 10 ds n → ds.length ≤ 4300 →
      ∀ lead trail : Text, (∀ c ∈ lead, isBlank c = true) → (∀ c ∈ trail, isBlank c = true) →
        coerceValue (lead ++ (sign ++ ds ++ trail)) = .ok (.int (if negative then -n else n))) ∧
    (∀ (mark : Char) (base : Nat), (mark, base) ∈ marks → (∀ c ∈ ds, ∃ d, IsDigitOf c d) →
      (∀ n, Denotes base ds n → coerceValue ('0' :: mark :: ds) = .ok (.int n)) ∧
      (∀ n, Doubled base ds n →
        coerceValue ('0' :: mark :: ds) = .ok (.int n) ∧ ∀ m, ¬Denotes base ds m) ∧
      ((∀ n, ¬Denotes base ds n ∧ ¬Doubled base ds n) →
        coerceValue ('0' :: mark :: ds) = .ok (.text ('0' :: mark :: ds)))) ∧
    ((natText i.natAbs).length ≤ 4300 → coerceValue (intText i) = .ok (.int i)) ∧
    ∀ (mark : Char) (base : Nat), (mark, base) ∈ marks → 0 ≤ i →
      coerceValue ('0' :: mark :: Nat.toDigits base i.toNat) = .ok (.int i) ∧
      coerceValue ('0' :: mark :: (Nat.toDigits base i.toNat).map Char.toUpper) = .ok (.int i) := by
  refine ⟨fun base => exists_denotes_iff, ?_, ?_, ?_, ?_⟩
  · intro sign negative n hsign h hlimit lead trail hlead htrail
    exact coerceValue_signed hsign h hlimit hlead htrail
  · intro mark base hmark hds
    refine ⟨fun n h => coerceValue_of_denotes hmark h, fun n h => ?_, fun h => ?_⟩
    · obtain ⟨rfl, hread, hnone⟩ := h.undoubled
      refine ⟨?_, hnone⟩
      rw [coerceValue_mark hmark hds, readBase?_eq_some_iff.mpr hread]
      rfl
    · rw [coerceValue_mark hmark hds, readBase?_undoubled_eq_none h]
      rfl
  · intro hlimit
    exact coerceValue_of_spells (.int hlimit) (strip_intText i)
  · intro mark base hmark hi
    have hbases : ∀ entry ∈ marks, 1 < entry.2 ∧ entry.2 ≤ 16 := by decide
    obtain ⟨hone, hbase⟩ := hbases _ hmark
    have h := denotes_toDigits hone hbase i.toNat
    have hvalue : (i.toNat : Int) = i := Int.toNat_of_nonneg hi
    have hsmall := coerceValue_of_denotes hmark h
    have hcapital := coerceValue_of_denotes hmark h.map_toUpper
    rw [hvalue] at hsmall hcapital
    exact ⟨hsmall, hcapital⟩

/-- A sign, blanks and leading zeros, letters in both cases, a digit that is too large, and a mark
that stands twice. -/
theorem coerceValue_of_doubledMark :
    coerceValue " -0042\n".toList = .ok (.int (-42)) ∧
    coerceValue "0XfF".toList = .ok (.int 255) ∧
    coerceValue "0b12".toList = .ok (.text "0b12".toList) ∧
    coerceValue (intText (-7)) = .ok (.int (-7)) ∧
    coerceValue "0b0b1".toList = .ok (.int 1) ∧ ∀ n, ¬Denotes 2 "0b1".toList n := by
  obtain ⟨-, hdecimal, -, hprinted, -⟩ := coerceValue_integerLiterals "0042".toList (-7)
  obtain ⟨-, -, hsixteen, -⟩ := coerceValue_integerLiterals "fF".toList 0
  obtain ⟨-, -, htwo, -⟩ := coerceValue_integerLiterals "12".toList 0
  obtain ⟨-, -, hagain, -⟩ := coerceValue_integerLiterals "0b1".toList 0
  have hhex {ds : Text} (h : (ds.all fun c => (hexValue? c).isSome) = true) :
      ∀ c ∈ ds, ∃ d, IsDigitOf c d := by
    intro c hc
    obtain ⟨d, hd⟩ := Option.isSome_iff_exists.mp (List.all_eq_true.mp h c hc)
    exact ⟨d, hexValue?_eq_some_iff.mp hd⟩
  have hfortyTwo : Denotes 10 "0042".toList 42 := readBase?_eq_some_iff.mp (by decide)
  have hbyte : Denotes 16 "fF".toList 255 := readBase?_eq_some_iff.mp (by decide)
  have hone : Doubled 2 "0b1".toList 1 :=
    ⟨rfl, 'b', ['1'], by decide, rfl, readBase?_eq_some_iff.mp (by decide)⟩
  have hnot : ∀ n, ¬Denotes 2 "12".toList n ∧ ¬Doubled 2 "12".toList n := by
    intro n
    constructor
    · rw [← readBase?_eq_some_iff]
      have hnone : readBase? 2 "12".toList = none := by decide
      rw [hnone]
      exact (Option.some_ne_none n).symm
    · rintro ⟨-, again, rest, -, hsplit, -⟩
      cases hsplit
  obtain ⟨hdoubled, hnone⟩ := (hagain 'b' 2 (by decide) (hhex (by decide))).2.1 1 hone
  refine ⟨?_, ?_, ?_, hprinted (by decide), hdoubled, hnone⟩
  · exact hdecimal ['-'] true 42 (by decide) hfortyTwo (by decide) [' '] ['\n'] (by decide) (by decide)
  · exact (hsixteen 'X' 16 (by decide) (hhex (by decide))).1 255 hbyte
  · exact (htwo 'b' 2 (by decide) (hhex (by decide))).2.2 hnot

end Code

end ComponentCatalog
