import ComponentCatalog.Code.Literal
import ComponentCatalog.Proofs.Scanning

/-!
Literals as they are written: strings, truth values, integers, decimals and other text are read back
as what they spell.
-/
namespace ComponentCatalog.Code

open Text Number

/-- A character with which a string or a number begins. -/
def beginsLiteral (c : Char) : Bool :=
  isQuote c || isDecimal c || c == '-' || c == '+' || c == '.'

/-- The text spells the value. -/
inductive Spells : Text → Value → Prop
  | quoted {q : Char} (hq : isQuote q = true) (s : Text) : Spells (q :: (s ++ [q])) (.text s)
  | yes : Spells "true".toList (.bool true)
  | no : Spells "false".toList (.bool false)
  | int {n : Int} (h : (natText n.natAbs).length ≤ digitLimit) : Spells (intText n) (.int n)
  | decimal (negative : Bool) (whole decimals : Text) (hne : whole ++ decimals ≠ [])
      (h : ∀ c ∈ whole ++ decimals, c.isDigit = true) :
      Spells ((if negative then ['-'] else []) ++ (whole ++ '.' :: decimals))
        (.float (ofDecimal negative (Nat.ofDigitChars 10 (whole ++ decimals) 0)
          (-decimals.length)))
  | bare {c : Char} {s : Text} (hc : beginsLiteral c = false)
      (hword : c :: s ∉ ["true".toList, "false".toList]) : Spells (c :: s) (.text (c :: s))

variable {s u rest : Text}

def digitsOf (u : Text) : List Nat := u.map fun c => c.toNat - 48

theorem ofDigits_digitsOf (u : Text) : ofDigits 10 (digitsOf u) = Nat.ofDigitChars 10 u 0 := by
  have hstep : (fun value (c : Char) => value * 10 + (c.toNat - 48)) =
      fun value c => 10 * value + (c.toNat - '0'.toNat) := by
    funext value c
    rw [Nat.mul_comm]
    rfl
  rw [ofDigits, digitsOf, List.foldl_map, hstep, Nat.ofDigitChars]

theorem leadingDigits_append (hu : ∀ c ∈ u, c.isDigit = true) (rest : Text)
    (hrest : rest.head?.any isDecimal = false) :
    leadingDigits (u ++ rest) = (digitsOf u, rest) := by
  induction u with
  | nil =>
    cases rest with
    | nil => rfl
    | cons c rest =>
      have hc : digitValue? c = none := by
        simpa [isDecimal] using hrest
      rw [List.nil_append, leadingDigits, hc]
      rfl
  | cons c u ih =>
    have hc : digitValue? c = some (c.toNat - 48) := if_pos (hu c List.mem_cons_self)
    rw [List.cons_append, leadingDigits, hc]
    dsimp only
    rw [ih fun c hc => hu c (.tail _ hc)]
    rfl

theorem signed_sign (negative : Bool) (hu : u.head? ≠ some '-' ∧ u.head? ≠ some '+') :
    signed ((if negative then ['-'] else []) ++ u) = (negative, u) := by
  cases negative with
  | true => rfl
  | false =>
    rw [if_neg Bool.false_ne_true, List.nil_append]
    unfold signed
    split
    · exact absurd rfl hu.1
    · exact absurd rfl hu.2
    · rfl

theorem head?_of_digits (hu : ∀ c ∈ u, c.isDigit = true) {c : Char} (hc : c.isDigit = false) :
    u.head? ≠ some c := fun h =>
  Bool.false_ne_true (hc.symm.trans (hu c (List.mem_of_mem_head? h)))

theorem numeral?_digits (negative : Bool) (hne : u ≠ []) (hu : ∀ c ∈ u, c.isDigit = true) :
    numeral? ((if negative then ['-'] else []) ++ u) =
      some ⟨negative, digitsOf u, 0, false, none⟩ := by
  have hdigits : leadingDigits u = (digitsOf u, []) := by
    have := leadingDigits_append hu [] rfl
    rwa [List.append_nil] at this
  have hsome : digitsOf u ≠ [] := by simpa [digitsOf] using hne
  rw [numeral?, signed_sign negative ⟨head?_of_digits hu rfl, head?_of_digits hu rfl⟩]
  simp [hdigits, hsome]

theorem numeral?_decimal (negative : Bool) {whole decimals : Text} (hne : whole ++ decimals ≠ [])
    (h : ∀ c ∈ whole ++ decimals, c.isDigit = true) :
    numeral? ((if negative then ['-'] else []) ++ (whole ++ '.' :: decimals)) =
      some ⟨negative, digitsOf (whole ++ decimals), decimals.length, true, none⟩ := by
  have hwhole : ∀ c ∈ whole, c.isDigit = true := fun c hc => h c (List.mem_append_left _ hc)
  have hdecimals : leadingDigits decimals = (digitsOf decimals, []) := by
    have := leadingDigits_append (u := decimals)
      (fun c hc => h c (List.mem_append_right _ hc)) [] rfl
    rwa [List.append_nil] at this
  have hhead {c : Char} (hc : c.isDigit = false) (hdot : c ≠ '.') :
      (whole ++ '.' :: decimals).head? ≠ some c := by
    cases whole with
    | nil => simpa using Ne.symm hdot
    | cons d whole => exact head?_of_digits hwhole hc
  have hlength : (digitsOf decimals).length = decimals.length := List.length_map _
  have hsome : ¬(digitsOf whole = [] ∧ digitsOf decimals = []) := by
    simpa [digitsOf] using hne
  have happend : digitsOf (whole ++ decimals) = digitsOf whole ++ digitsOf decimals :=
    List.map_append
  rw [numeral?, signed_sign negative ⟨hhead rfl (by decide), hhead rfl (by decide)⟩]
  simp only [leadingDigits_append hwhole ('.' :: decimals) rfl, hdecimals, if_neg hsome,
    if_true, happend, hlength]

theorem numeral?_of_bare {c : Char} (hc : beginsLiteral c = false) (s : Text) :
    numeral? (c :: s) = none := by
  simp only [beginsLiteral, Bool.or_eq_false_iff, beq_eq_false_iff_ne] at hc
  obtain ⟨⟨⟨⟨-, hdecimal⟩, hminus⟩, hplus⟩, hpoint⟩ := hc
  have hsigned : signed (c :: s) = (false, c :: s) :=
    signed_sign false ⟨by simpa using hminus, by simpa using hplus⟩
  have hdigits : leadingDigits (c :: s) = ([], c :: s) :=
    leadingDigits_append (u := []) (by simp) _ hdecimal
  simp [numeral?, hsigned, hdigits, hpoint]

theorem prefixedInt?_of_bare {c : Char} (hc : isDecimal c = false) (s : Text) :
    prefixedInt? (c :: s) = none := by
  rw [prefixedInt?.eq_2]
  rintro mark digits ⟨⟩
  exact absurd hc (by decide)

theorem intText_eq (n : Int) :
    intText n = (if decide (n < 0) then ['-'] else []) ++ natText n.natAbs := by
  cases n with
  | ofNat n =>
    have hn : decide (Int.ofNat n < 0) = false := decide_eq_false (by simp)
    rw [hn]
    rfl
  | negSucc n =>
    have hn : decide (Int.negSucc n < 0) = true := decide_eq_true (Int.negSucc_lt_zero n)
    rw [hn]
    rfl

/-- A number is read from the whole of a stripped text. -/
theorem coerceNumber_of_strip (h : strip s = s) :
    (if s.getLast? = some '\n' then s.dropLast else s) = s := by
  refine if_neg fun hlast => ?_
  obtain ⟨t, rfl⟩ := List.getLast?_eq_some_iff.mp hlast
  have hlength : (strip t).length ≤ t.length :=
    Nat.le_trans (length_dropEndWhile_le _ _) (List.dropWhile_sublist _).length_le
  rw [strip_append_of_blank (by decide) t] at h
  rw [h, List.length_append, List.length_singleton] at hlength
  omega

theorem coerceNumber_digits {negative : Bool} (hstrip : strip s = s)
    (hnumeral : numeral? s = some ⟨negative, digitsOf u, 0, false, none⟩)
    (hlimit : u.length ≤ digitLimit) :
    coerceNumber s = .ok (some (.int (applySign negative (ofDigits 10 (digitsOf u))))) := by
  have hwithin : ¬digitLimit < (digitsOf u).length := by
    rw [digitsOf, List.length_map]
    omega
  rw [coerceNumber, coerceNumber_of_strip hstrip]
  simp only [hnumeral, Numeral.isWhole, Numeral.toInt, if_neg hwithin]
  rfl

theorem coerceNumber_intText {n : Int} (h : (natText n.natAbs).length ≤ digitLimit)
    (hstrip : strip (intText n) = intText n) : coerceNumber (intText n) = .ok (some (.int n)) := by
  have hdigits : ∀ c ∈ natText n.natAbs, c.isDigit = true := fun c hc =>
    Nat.isDigit_of_mem_toDigits (by decide) (by decide) hc
  have hvalue : ofDigits 10 (digitsOf (natText n.natAbs)) = n.natAbs := by
    rw [ofDigits_digitsOf]
    exact Nat.ofDigitChars_toDigits (by decide) (by decide)
  have hsign : applySign (decide (n < 0)) n.natAbs = n := by
    by_cases hn : n < 0
    · rw [applySign, decide_eq_true hn, if_pos rfl]
      omega
    · rw [applySign, decide_eq_false hn, if_neg Bool.false_ne_true]
      omega
  have hnumeral := numeral?_digits (decide (n < 0)) Nat.toDigits_ne_nil hdigits
  rw [← natText, ← intText_eq] at hnumeral
  rw [coerceNumber_digits hstrip hnumeral h, hvalue, hsign]

theorem coerceNumber_decimal (negative : Bool) {whole decimals : Text}
    (hne : whole ++ decimals ≠ []) (h : ∀ c ∈ whole ++ decimals, c.isDigit = true)
    (hstrip : strip ((if negative then ['-'] else []) ++ (whole ++ '.' :: decimals)) =
      (if negative then ['-'] else []) ++ (whole ++ '.' :: decimals)) :
    coerceNumber ((if negative then ['-'] else []) ++ (whole ++ '.' :: decimals)) =
      .ok (some (.float (ofDecimal negative (Nat.ofDigitChars 10 (whole ++ decimals) 0)
        (-decimals.length)))) := by
  rw [coerceNumber, coerceNumber_of_strip hstrip, numeral?_decimal negative hne h]
  simp [Numeral.isWhole, Numeral.toFloat, ofDigits_digitsOf]

theorem coerceValue_of_strip {t : Text} (h : strip s = strip t) :
    coerceValue s = coerceValue t := by
  simp only [coerceValue, h]

/-- A text that is no string and no truth value is read as a number if it is one. -/
theorem coerceValue_eq_map (hstrip : strip s = s) (hhead : s.head?.any isQuote = false)
    (hword : s ∉ ["true".toList, "false".toList]) :
    coerceValue s = (coerceNumber s).map fun number? => number?.getD (.text s) := by
  rw [List.mem_cons, List.mem_singleton, not_or] at hword
  rw [coerceValue, hstrip, hhead, if_neg Bool.false_ne_true, if_neg hword.1, if_neg hword.2]

/-- The characters of integers and decimals. -/
def isNumeric (c : Char) : Bool := c.isDigit || c == '-' || c == '.'

theorem coerceValue_of_numeric (hstrip : strip s = s) (h : ∀ c ∈ s, isNumeric c = true) :
    coerceValue s = (coerceNumber s).map fun number? => number?.getD (.text s) := by
  have hnot {c : Char} (hc : isNumeric c = false) : c ∉ s := fun hmem =>
    Bool.false_ne_true (hc.symm.trans (h c hmem))
  refine coerceValue_eq_map hstrip ?_ ?_
  · rw [← Bool.not_eq_true, Option.any_eq_true]
    rintro ⟨q, hmem, hq⟩
    rcases (by simpa [isQuote] using hq : q = '\'' ∨ q = '"') with rfl | rfl
    · exact hnot rfl (List.mem_of_mem_head? hmem)
    · exact hnot rfl (List.mem_of_mem_head? hmem)
  · intro hmem
    rcases (by simpa using hmem : s = "true".toList ∨ s = "false".toList) with rfl | rfl
    · exact hnot (c := 't') rfl (by decide)
    · exact hnot (c := 'f') rfl (by decide)

theorem isNumeric_append {negative : Bool} (h : ∀ c ∈ u, c.isDigit = true ∨ c = '.') :
    ∀ c ∈ (if negative then ['-'] else []) ++ u, isNumeric c = true := by
  intro c hc
  rcases List.mem_append.mp hc with hc | hc
  · have hminus : c = '-' := by
      cases negative with
      | true => exact List.mem_singleton.mp hc
      | false => cases hc
    rw [hminus]
    rfl
  · rcases h c hc with hdigit | rfl
    · simp [isNumeric, hdigit]
    · rfl

/-- A text that spells a value is read as it. -/
theorem coerceValue_of_spells {raw : Text} {value : Value} (h : Spells raw value)
    (hstrip : strip raw = raw) : coerceValue raw = .ok value := by
  cases h with
  | @quoted q hq s =>
    have hhead : (q :: (s ++ [q])).head?.any isQuote = true := hq
    rw [coerceValue, hstrip, if_pos hhead, List.tail_cons, List.dropLast_concat]
  | yes => rfl
  | no => rfl
  | @int n h =>
    have hnumeric : ∀ c ∈ intText n, isNumeric c = true := by
      rw [intText_eq]
      exact isNumeric_append fun c hc =>
        .inl (Nat.isDigit_of_mem_toDigits (by decide) (by decide) hc)
    rw [coerceValue_of_numeric hstrip hnumeric, coerceNumber_intText h hstrip]
    rfl
  | decimal negative whole decimals hne h =>
    rw [coerceValue_of_numeric hstrip (isNumeric_append fun c hc => ?_),
      coerceNumber_decimal negative hne h hstrip]
    · rfl
    · rw [List.mem_append, List.mem_cons] at hc
      rcases hc with hc | rfl | hc
      · exact .inl (h c (List.mem_append_left _ hc))
      · exact .inr rfl
      · exact .inl (h c (List.mem_append_right _ hc))
  | @bare c s hc hword =>
    have hkind := hc
    simp only [beginsLiteral, Bool.or_eq_false_iff] at hkind
    obtain ⟨⟨⟨⟨hquote, hdecimal⟩, -⟩, -⟩, -⟩ := hkind
    rw [coerceValue_eq_map hstrip hquote hword, coerceNumber, coerceNumber_of_strip hstrip,
      numeral?_of_bare hc]
    dsimp only
    rw [prefixedInt?_of_bare hdecimal]
    rfl

end ComponentCatalog.Code
