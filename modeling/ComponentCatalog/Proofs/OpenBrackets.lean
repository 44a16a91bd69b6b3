import ComponentCatalog.Component.Property
import ComponentCatalog.Proofs.Scanning

/-!
The brackets that are open at a place of the body of a declaration. A type expression that ends
before the body does closes all that it opens, and leaves the brackets around it as they were.
-/
namespace ComponentCatalog.Component

open Text

/-- The character opens or closes a bracket. -/
def isTypeBracket (c : Char) : Bool := (typeCloser? c).isSome || isTypeCloser c

/-- The awaited closing brackets after a character, innermost first. The arrow `=>` and a bracket
that is not the next one awaited close nothing. -/
def bracketStep (previous : Option Char) (c : Char) (awaited : List Char) : List Char :=
  match typeCloser? c with
  | some closer => closer :: awaited
  | none =>
    if isTypeCloser c ∧ ¬(c = '>' ∧ previous = some '=') ∧ awaited.head? = some c then awaited.tail
    else awaited

/-- The awaited closing brackets after a text that begins at `offset`, where only the brackets at
the places that count open and close. -/
def openBrackets (counts : Nat → Bool) :
    (offset : Nat) → (previous : Option Char) → (awaited : List Char) → Text → List Char
  | _, _, awaited, [] => awaited
  | offset, previous, awaited, c :: rest =>
    openBrackets counts (offset + 1) (some c)
      (if counts offset then bracketStep previous c awaited else awaited) rest

/-- The awaited closing brackets at a place of a text. -/
def openAt (counts : Nat → Bool) (s : Text) (i : Nat) : List Char :=
  openBrackets counts 0 none [] (s.take i)

variable {counts counts' : Nat → Bool} {offset i : Nat} {previous : Option Char}
  {awaited below : List Char} {c : Char} {s u v rest : Text}

theorem bracketStep_of_not_bracket (h : isTypeBracket c = false) (previous : Option Char)
    (awaited : List Char) : bracketStep previous c awaited = awaited := by
  obtain ⟨hopen, hclose⟩ := Bool.or_eq_false_iff.mp h
  rw [bracketStep, Option.not_isSome_iff_eq_none.mp (Bool.eq_false_iff.mp hopen)]
  simp [hclose]

theorem openBrackets_append :
    openBrackets counts offset previous awaited (u ++ v) =
      openBrackets counts (offset + u.length) (lastOf previous u)
        (openBrackets counts offset previous awaited u) v := by
  induction u generalizing offset previous awaited with
  | nil => rfl
  | cons c u ih =>
    rw [List.cons_append, openBrackets, ih, openBrackets, List.length_cons, Nat.add_right_comm,
      Nat.add_assoc]
    rfl

/-- Where the brackets count, each character makes its step. -/
theorem openBrackets_cons (h : isTypeBracket c = true → counts offset = true) :
    openBrackets counts offset previous awaited (c :: rest) =
      openBrackets counts (offset + 1) (some c) (bracketStep previous c awaited) rest := by
  rw [openBrackets]
  split
  next => rfl
  next hcounts =>
    have hbracket : isTypeBracket c = false := Bool.eq_false_iff.mpr fun hc => hcounts (h hc)
    rw [bracketStep_of_not_bracket hbracket]

/-- The brackets further on come from those here and from what lies between. -/
theorem openAt_add (counts : Nat → Bool) (s : Text) (i n : Nat) :
    openAt counts s (i + n) =
      openBrackets counts (s.take i).length (lastOf none (s.take i)) (openAt counts s i)
        ((s.drop i).take n) := by
  rw [openAt, List.take_add, openBrackets_append, Nat.zero_add, openAt]

/-- The brackets among the first characters of a text count. -/
def Counted (counts : Nat → Bool) (offset length : Nat) (s : Text) : Prop :=
  ∀ i c, i < length → s[i]? = some c → isTypeBracket c = true → counts (offset + i) = true

theorem openBrackets_take_succ {length : Nat}
    (hcounts : Counted counts offset (length + 1) (c :: rest))
    (h : Counted counts (offset + 1) length rest →
      openBrackets counts (offset + 1) (some c) (bracketStep previous c awaited)
        (rest.take length) = below) :
    openBrackets counts offset previous awaited ((c :: rest).take (length + 1)) = below := by
  have hhere : isTypeBracket c = true → counts offset = true := hcounts 0 c (Nat.succ_pos _) rfl
  rw [List.take_succ_cons, openBrackets_cons hhere]
  apply h
  intro i d hi hd hbracket
  rw [Nat.add_assoc, Nat.add_comm 1]
  exact hcounts (i + 1) d (Nat.succ_lt_succ hi) hd hbracket

/-- A type expression that ends before the text leaves the brackets around it as they were. -/
theorem openBrackets_typeLength (awaited : List Char) (h : typeLength awaited previous s < s.length)
    (hcounts : Counted counts offset (typeLength awaited previous s) s) :
    openBrackets counts offset previous (awaited ++ below)
      (s.take (typeLength awaited previous s)) = below := by
  -- At every step what is awaited lies on top of the brackets that were open before.
  fun_induction typeLength awaited previous s generalizing offset with
  | case1 => cases h
  | case2 awaited previous c rest closer hopen ih =>
    apply openBrackets_take_succ hcounts
    rw [bracketStep, hopen]
    exact ih (Nat.lt_of_succ_lt_succ h)
  | case3 awaited previous c rest hopen hclose harrow ih =>
    apply openBrackets_take_succ hcounts
    rw [bracketStep, hopen]
    dsimp only
    rw [if_neg fun hstep => hstep.2.1 harrow]
    exact ih (Nat.lt_of_succ_lt_succ h)
  | case4 => rfl
  | case5 previous c rest hopen hclose harrow closer outer ih =>
    apply openBrackets_take_succ hcounts
    have hstep : bracketStep previous c (closer :: outer ++ below) =
        (if c = closer then outer else closer :: outer) ++ below := by
      rw [bracketStep, hopen]
      dsimp only
      by_cases hcloser : c = closer
      · subst hcloser
        rw [if_pos ⟨hclose, harrow, rfl⟩, if_pos rfl]
        rfl
      · rw [if_neg fun hstep => hcloser (Option.some.inj hstep.2.2).symm, if_neg hcloser]
    rw [hstep]
    exact ih (Nat.lt_of_succ_lt_succ h)
  | case6 awaited previous c rest hopen hclose hends =>
    obtain ⟨rfl, -⟩ := hends
    rfl
  | case7 awaited previous c rest hopen hclose hends ih =>
    apply openBrackets_take_succ hcounts
    rw [bracketStep, hopen]
    dsimp only
    rw [if_neg fun hstep => hclose hstep.1]
    exact ih (Nat.lt_of_succ_lt_succ h)

theorem typeLength_le (awaited : List Char) (previous : Option Char) (s : Text) :
    typeLength awaited previous s ≤ s.length := by
  fun_induction typeLength awaited previous s
  case case1 | case4 | case6 => exact Nat.zero_le _
  case case2 ih | case3 ih | case5 ih | case7 ih => exact Nat.succ_le_succ ih

/-- A type expression begins behind a colon or a blank, where no arrow ends. -/
theorem typeLength_previous (h : previous ≠ some '=') :
    typeLength awaited previous s = typeLength awaited none s := by
  cases s with
  | nil => rfl
  | cons c rest => simp [typeLength, h]

/-- One of the spans covers the place. -/
def covers (spans : List (Nat × Nat)) (i : Nat) : Bool :=
  spans.any fun (first, last) => first ≤ i && i < last

theorem covers_eq_true {spans : List (Nat × Nat)} :
    covers spans i = true ↔ ∃ x ∈ spans, x.1 ≤ i ∧ i < x.2 := by
  simp [covers]

theorem openAt_succ (counts : Nat → Bool) (h : i < s.length) :
    openAt counts s (i + 1) =
      if counts i then bracketStep (lastOf none (s.take i)) s[i] (openAt counts s i)
      else openAt counts s i := by
  have hlength : (s.take i).length = i := List.length_take_of_le (Nat.le_of_lt h)
  rw [openAt_add, hlength, List.drop_eq_getElem_cons h, List.take_succ_cons, List.take_zero,
    openBrackets, openBrackets]

theorem openAt_of_uncounted (counts : Nat → Bool) {n : Nat} (hn : i + n ≤ s.length)
    (h : ∀ j, i ≤ j → j < i + n → counts j = false) :
    openAt counts s (i + n) = openAt counts s i := by
  induction n with
  | zero => rfl
  | succ n ih =>
    have hlast : counts (i + n) = false := h (i + n) (Nat.le_add_right i n) (Nat.lt_succ_self _)
    have hrest := ih (by omega) fun j hj hlt => h j hj (by omega)
    rw [← Nat.add_assoc, openAt_succ counts (by omega), hlast, if_neg Bool.false_ne_true, hrest]

/-- Spans that leave the open brackets as they were may be passed over. -/
theorem openAt_except {spans : List (Nat × Nat)}
    (hapart : ∀ x ∈ spans, ∀ y ∈ spans, ¬(x.1 < y.1 ∧ y.1 < x.2))
    (hclosed : ∀ x ∈ spans, x.2 < s.length → openAt counts s x.2 = openAt counts s x.1)
    (hi : i < s.length) (hout : ∀ x ∈ spans, ¬(x.1 < i ∧ i < x.2)) :
    openAt counts s i = openAt (fun j => counts j && !covers spans j) s i := by
  induction i using Nat.strong_induction_on with
  | h i ih =>
  cases i with
  | zero => rfl
  | succ j =>
    cases hcovers : covers spans j with
    | true =>
      -- The place is the end of the span, whose beginning comes before it.
      obtain ⟨x, hx, hle, hlt⟩ := covers_eq_true.mp hcovers
      have hlast : j + 1 = x.2 := by
        have hinside := hout x hx
        omega
      have hpassed : openAt (fun j => counts j && !covers spans j) s x.2 =
          openAt (fun j => counts j && !covers spans j) s x.1 := by
        have hlength : x.2 = x.1 + (x.2 - x.1) := by omega
        rw [hlength]
        apply openAt_of_uncounted
        · omega
        · intro k hk hkx
          have hcover : covers spans k = true := covers_eq_true.mpr ⟨x, hx, hk, by omega⟩
          rw [hcover]
          exact Bool.and_false _
      rw [hlast, hclosed x hx (by omega), hpassed]
      exact ih x.1 (by omega) (by omega) fun y hy => hapart y hy x hx
    | false =>
      have hj := ih j (Nat.lt_succ_self j) (by omega) fun x hx hinside => by
        have hcover : covers spans j = true := covers_eq_true.mpr ⟨x, hx, by omega, hinside.2⟩
        rw [hcovers] at hcover
        cases hcover
      rw [openAt_succ counts (by omega), openAt_succ _ (by omega), ← hj, hcovers, Bool.not_false,
        Bool.and_true]

end ComponentCatalog.Component
