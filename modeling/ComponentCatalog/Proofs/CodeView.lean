import Mathlib.Data.Nat.Find
import Mathlib.Order.Bounds.Basic
import ComponentCatalog.Code.Bracket

/-!
A lexer that reads program text one character at a time, and the search for a closing bracket by its
reading. The search jumps over literals and comments; here each character is read in a mode, and the
view of a text keeps those that are read as code.
-/
namespace ComponentCatalog.Code

open Text

/-- What the lexer is in. -/
inductive Mode where
  | code
  | literal (mark : Char)
  /-- Behind a backslash in a literal. -/
  | escape (mark : Char)
  | lineComment
  /-- Before the star that opens a block comment. -/
  | blockOpening
  | blockComment
  /-- Before the slash that closes a block comment. -/
  | blockClosing
  deriving DecidableEq, Repr

/-- Whether a character is read as code, and the mode after it; `next?` is the one behind it. -/
def Mode.read (c : Char) (next? : Option Char) : Mode → Bool × Mode
  | .code =>
    if isStringMark c then (false, .literal c)
    else if c = '/' ∧ next? = some '/' then (false, .lineComment)
    else if c = '/' ∧ next? = some '*' then (false, .blockOpening)
    else (true, .code)
  | .literal mark =>
    if c = '\\' then (false, .escape mark)
    else if c = mark then (false, .code)
    else if c = '\n' ∧ mark ≠ '\x60' then (true, .code)
    else (false, .literal mark)
  | .escape mark => (false, .literal mark)
  | .lineComment => if c = '\n' then (true, .code) else (false, .lineComment)
  | .blockOpening => (false, .blockComment)
  | .blockComment =>
    if c = '*' ∧ next? = some '/' then (false, .blockClosing) else (false, .blockComment)
  | .blockClosing => (false, .code)

/-- The characters that are read as code, each in its place; nothing stands for the others. -/
def codeView : Mode → Text → List (Option Char)
  | _, [] => []
  | mode, c :: rest =>
    let (isCode, after) := mode.read c rest.head?
    (if isCode then some c else none) :: codeView after rest

/-- A reading that begins at `i` comes to `c` as code at `k`. -/
def ReadsCode (s : Text) (i k : Nat) (c : Char) : Prop :=
  i ≤ k ∧ (codeView .code (s.drop i))[k - i]? = some (some c)

instance (s : Text) (i k : Nat) (c : Char) : Decidable (ReadsCode s i k c) :=
  inferInstanceAs (Decidable (_ ∧ _))

/-- How often a reading that begins at `i` comes to `c` as code up to, and including, `j`. -/
def codeCount (s : Text) (i j : Nat) (c : Char) : Nat :=
  ((codeView .code (s.drop i)).take (j - i + 1)).count (some c)

/-- The code from `i` to `j` ends in the closing bracket and has as many of either. -/
structure Closes (b : Bracket) (s : Text) (i j : Nat) : Prop where
  reads : ReadsCode s i j b.closing
  even : codeCount s i j b.opening = codeCount s i j b.closing

theorem codeView_hidden (after : Mode) {mode : Mode} {c : Char} {rest : Text}
    (h : mode.read c rest.head? = (false, after)) :
    codeView mode (c :: rest) = none :: codeView after rest := by
  rw [codeView, h]
  rfl

theorem codeView_shown (after : Mode) {mode : Mode} {c : Char} {rest : Text}
    (h : mode.read c rest.head? = (true, after)) :
    codeView mode (c :: rest) = some c :: codeView after rest := by
  rw [codeView, h]
  rfl

/-- The view of a text that is code but for its first characters. -/
def covered : Nat → Text → List (Option Char)
  | 0, s => codeView .code s
  | _ + 1, [] => []
  | n + 1, _ :: rest => none :: covered n rest

theorem codeView_literal {mark : Char} (hmark : isStringMark mark = true) (s : Text) :
    codeView (.literal mark) s = covered (stringTail mark s) s := by
  fun_induction stringTail mark s with
  | case1 => rfl
  | case2 => rfl
  | case3 c rest ih =>
    rw [codeView_hidden (.escape mark) rfl, codeView_hidden (.literal mark) rfl, ih]
    rfl
  | case4 rest hbackslash hescape =>
    have hne : mark ≠ '\\' := by
      rintro rfl
      cases hmark
    rw [codeView_hidden .code (by simp [Mode.read, hne])]
    rfl
  | case5 c rest _ _ hmark' hfeed =>
    obtain ⟨rfl, hmark''⟩ := hfeed
    rw [codeView_shown .code (by simp [Mode.read, hmark', hmark''])]
    rfl
  | case6 c rest hlast hescape hmark' hfeed ih =>
    have hbackslash : c ≠ '\\' := by
      rintro rfl
      cases rest with
      | nil => exact hlast rfl rfl
      | cons d rest => exact hescape d rest rfl rfl
    rw [codeView_hidden (.literal mark) (by simp [Mode.read, hbackslash, hmark', hfeed]), ih]
    rfl

theorem codeView_lineComment (s : Text) :
    codeView .lineComment s = covered (lineCommentTail s) s := by
  induction s with
  | nil => rfl
  | cons c rest ih =>
    by_cases hfeed : c = '\n'
    · subst hfeed
      rfl
    · have htail : lineCommentTail (c :: rest) = lineCommentTail rest + 1 := by
        simp [lineCommentTail, hfeed]
      rw [codeView_hidden .lineComment (by simp [Mode.read, hfeed]), htail, ih]
      rfl

theorem codeView_blockComment (s : Text) :
    codeView .blockComment s = covered (blockCommentTail s) s := by
  fun_induction blockCommentTail s with
  | case1 => rfl
  | case2 rest => rfl
  | case3 c rest hend ih =>
    have hopen : ¬(c = '*' ∧ rest.head? = some '/') := by
      rintro ⟨rfl, hslash⟩
      obtain ⟨more, rfl⟩ := List.head?_eq_some_iff.mp hslash
      exact hend more rfl rfl
    rw [codeView_hidden .blockComment (by rw [Mode.read, if_neg hopen]), ih]
    rfl

/-- A literal or a comment that begins in code is covered to its end. -/
theorem codeView_code_covered {c : Char} {rest : Text} {tail : Nat}
    (h : opaqueTail? c rest = some tail) :
    codeView .code (c :: rest) = none :: covered tail rest := by
  unfold opaqueTail? at h
  split at h
  next hmark =>
    cases h
    rw [codeView_hidden (.literal c) (by rw [Mode.read, if_pos hmark]),
      codeView_literal hmark]
  next hmark =>
    split at h
    next hslash =>
      subst hslash
      split at h <;> cases h
      next more =>
        rw [codeView_hidden .lineComment rfl, codeView_hidden .lineComment rfl,
          codeView_lineComment]
        rfl
      next more =>
        rw [codeView_hidden .blockOpening rfl, codeView_hidden .blockComment rfl,
          codeView_blockComment]
        rfl
    next => cases h

theorem codeView_code_shown {c : Char} {rest : Text} (h : opaqueTail? c rest = none) :
    codeView .code (c :: rest) = some c :: codeView .code rest := by
  unfold opaqueTail? at h
  split at h
  next => cases h
  next hmark =>
    split at h
    next hslash =>
      have hhead (d : Char) (hd : ∀ more, rest = d :: more → False) : rest.head? ≠ some d := by
        intro hrest
        obtain ⟨more, hmore⟩ := List.head?_eq_some_iff.mp hrest
        exact hd more hmore
      split at h
      next => cases h
      next => cases h
      next hline hblock =>
        rw [codeView_shown .code]
        simp [Mode.read, hmark, hhead '/' hline, hhead '*' hblock]
    next hslash =>
      rw [codeView_shown .code]
      simp [Mode.read, hmark, hslash]

/-- What a place of a view adds to the number of open brackets. -/
def shift (b : Bracket) (place : Option Char) : Int :=
  if place = some b.opening then 1 else if place = some b.closing then -1 else 0

/-- The search for a closing bracket in a view, where nothing is jumped over. -/
def partnerFrom (b : Bracket) : (depth : Int) → (offset : Nat) → List (Option Char) → Option Nat
  | _, _, [] => none
  | depth, offset, place :: view =>
    if place = some b.closing ∧ depth = 1 then some offset
    else partnerFrom b (depth + shift b place) (offset + 1) view

/-- After `depth` open brackets, the closing bracket at place `n` of a view leaves none open. -/
def Evens (b : Bracket) (depth : Int) (view : List (Option Char)) (n : Nat) : Prop :=
  view[n]? = some (some b.closing) ∧
    depth + (view.take (n + 1)).count (some b.opening) = (view.take (n + 1)).count (some b.closing)

section Search

variable {b : Bracket} (hb : b.opening ≠ b.closing) {depth : Int} {place : Option Char}
  {view : List (Option Char)} {n : Nat}

include hb

theorem shift_closing : shift b (some b.closing) = -1 := by simp [shift, hb.symm]

theorem closingFrom_eq_partnerFrom (skip : Nat) (depth : Int) (offset : Nat) (s : Text) :
    closingFrom b skip depth offset s = partnerFrom b depth offset (covered skip s) := by
  induction s generalizing skip depth offset with
  | nil => cases skip <;> simp [closingFrom, covered, codeView, partnerFrom]
  | cons c rest ih =>
    cases skip with
    | succ skip => simp [closingFrom, covered, partnerFrom, shift, ih]
    | zero =>
      rw [closingFrom, covered]
      cases htail : opaqueTail? c rest with
      | some tail => simp [codeView_code_covered htail, partnerFrom, shift, ih]
      | none =>
        rw [codeView_code_shown htail, partnerFrom]
        by_cases hopen : c = b.opening
        · simp [hopen, hb, shift, ih, covered]
        · by_cases hclose : c = b.closing
          · by_cases hdepth : depth = 1 <;>
              simp [hclose, hb.symm, hdepth, shift, ih, covered, Int.sub_eq_add_neg]
          · simp [hopen, hclose, shift, ih, covered]

theorem evens_cons_zero :
    Evens b depth (place :: view) 0 ↔ place = some b.closing ∧ depth = 1 := by
  constructor
  · rintro ⟨hplace, heven⟩
    cases hplace
    simpa [hb.symm] using heven
  · rintro ⟨rfl, rfl⟩
    simp [Evens, hb.symm]

theorem evens_cons_succ :
    Evens b depth (place :: view) (n + 1) ↔ Evens b (depth + shift b place) view n := by
  have hcount (c : Char) : ((place :: view).take (n + 2)).count (some c) =
      (view.take (n + 1)).count (some c) + [place].count (some c) := by
    rw [List.take_succ_cons, ← List.singleton_append, List.count_append, Nat.add_comm]
  have hshift : shift b place =
      ([place].count (some b.opening) : Int) - [place].count (some b.closing) := by
    unfold shift
    split
    next hopen => simp [hopen, hb]
    next hopen =>
      split
      next hclose => simp [hclose, hb.symm]
      next hclose => simp [hopen, hclose]
  rw [Evens, Evens, List.getElem?_cons_succ, hcount, hcount, hshift]
  exact and_congr_right fun _ => by omega

/-- The search comes to the first place that leaves no bracket open. -/
theorem partnerFrom_eq_some_iff {offset j : Nat} :
    partnerFrom b depth offset view = some j ↔
      ∃ n, j = offset + n ∧ Evens b depth view n ∧ ∀ m < n, ¬Evens b depth view m := by
  induction view generalizing depth offset with
  | nil => simp [partnerFrom, Evens]
  | cons place view ih =>
    rw [partnerFrom]
    split
    next hfound =>
      have hzero : Evens b depth (place :: view) 0 := (evens_cons_zero hb).mpr hfound
      constructor
      · intro h
        exact ⟨0, (Option.some.inj h).symm, hzero, by simp⟩
      · rintro ⟨n, rfl, -, hleast⟩
        cases n with
        | zero => rfl
        | succ n => exact absurd hzero (hleast 0 n.succ_pos)
    next hopen =>
      have hzero : ¬Evens b depth (place :: view) 0 := fun h => hopen ((evens_cons_zero hb).mp h)
      rw [ih]
      constructor
      · rintro ⟨n, rfl, heven, hleast⟩
        refine ⟨n + 1, by omega, (evens_cons_succ hb).mpr heven, ?_⟩
        rintro (_ | m) hm
        · exact hzero
        · rw [evens_cons_succ hb]
          exact hleast m (Nat.lt_of_succ_lt_succ hm)
      · rintro ⟨_ | n, rfl, heven, hleast⟩
        · exact absurd heven hzero
        · refine ⟨n, by omega, (evens_cons_succ hb).mp heven, fun m hm => ?_⟩
          rw [← evens_cons_succ hb]
          exact hleast (m + 1) (Nat.succ_lt_succ hm)

end Search

theorem partnerFrom_add (b : Bracket) (depth : Int) (offset k : Nat) (view : List (Option Char)) :
    partnerFrom b depth (offset + k) view = (partnerFrom b depth offset view).map (· + k) := by
  induction view generalizing depth offset with
  | nil => rfl
  | cons place view ih =>
    rw [partnerFrom, partnerFrom, Nat.add_right_comm, ih]
    split <;> rfl

/-- Where an opening bracket stands, its partner is searched for in the view from there on. -/
theorem findClosing_eq_partnerFrom {b : Bracket} (hb : b.opening ≠ b.closing) {s : Text} {i : Nat}
    (hi : s[i]? = some b.opening) :
    findClosing b s i = partnerFrom b 0 i (codeView .code (s.drop i)) := by
  have hlength : i < s.length := (List.getElem?_eq_some_iff.mp hi).1
  have hposition : fromPosition? s i = some (s.drop i) := by
    rw [fromPosition?, if_pos (by omega), Int.toNat_natCast]
  have hhead : (s.drop i).head? = some b.opening := by rw [List.head?_drop, hi]
  rw [findClosing, hposition, Option.bind_some, closing?, if_pos hhead,
    closingFrom_eq_partnerFrom hb, Int.toNat_natCast, ← partnerFrom_add, Nat.zero_add]
  rfl

/-- Where no opening bracket stands, there is no partner. -/
theorem findClosing_eq_none {b : Bracket} {s : Text} {index : Int}
    (h : ∀ i : Nat, index = i → s[i]? ≠ some b.opening) : findClosing b s index = none := by
  rw [findClosing, fromPosition?]
  split
  next hrange =>
    have hhead : (s.drop index.toNat).head? ≠ some b.opening := by
      rw [List.head?_drop]
      exact h index.toNat (by omega)
    rw [Option.bind_some, closing?, if_neg hhead, Option.map_none]
  next => rfl

theorem closes_iff {b : Bracket} {s : Text} {i j : Nat} :
    Closes b s i j ↔ ∃ n, j = i + n ∧ Evens b 0 (codeView .code (s.drop i)) n := by
  constructor
  · rintro ⟨⟨hle, hreads⟩, heven⟩
    refine ⟨j - i, by omega, hreads, ?_⟩
    rw [Int.zero_add]
    exact congrArg Int.ofNat heven
  · rintro ⟨n, rfl, hreads, heven⟩
    rw [Int.zero_add, Int.natCast_inj] at heven
    exact ⟨⟨Nat.le_add_right i n, by rwa [Nat.add_sub_cancel_left]⟩,
      by rwa [codeCount, codeCount, Nat.add_sub_cancel_left]⟩

theorem findClosing_eq_some_iff {b : Bracket} (hb : b.opening ≠ b.closing) {s : Text} {i j : Nat}
    (hi : s[i]? = some b.opening) :
    findClosing b s i = some j ↔ IsLeast {j | Closes b s i j} j := by
  rw [findClosing_eq_partnerFrom hb hi, partnerFrom_eq_some_iff hb]
  constructor
  · rintro ⟨n, rfl, heven, hbefore⟩
    refine ⟨closes_iff.mpr ⟨n, rfl, heven⟩, fun k hk => ?_⟩
    obtain ⟨m, rfl, hm⟩ := closes_iff.mp hk
    by_contra hlt
    exact hbefore m (by omega) hm
  · rintro ⟨hcloses, hlower⟩
    obtain ⟨n, rfl, heven⟩ := closes_iff.mp hcloses
    refine ⟨n, rfl, heven, fun m hm hbefore => ?_⟩
    have hle := hlower (closes_iff.mpr ⟨m, rfl, hbefore⟩)
    omega

/-- The partner of an opening bracket is the first closing bracket in code up to which the code has
as many of either; there is none exactly if there is no such bracket, or no opening one to begin
with. -/
theorem findClosing_isLeast_closes {b : Bracket} (hb : b.opening ≠ b.closing) (s : Text)
    (index : Int) :
    ((∀ i : Nat, index = i → s[i]? ≠ some b.opening) → findClosing b s index = none) ∧
    ∀ i : Nat, index = i → s[i]? = some b.opening →
      (∀ j, findClosing b s index = some j ↔ IsLeast {j | Closes b s i j} j) ∧
      (findClosing b s index = none ↔ ∀ j, ¬Closes b s i j) := by
  refine ⟨findClosing_eq_none, ?_⟩
  rintro i rfl hi
  refine ⟨fun j => findClosing_eq_some_iff hb hi, ?_⟩
  constructor
  · intro hnone j hj
    classical
    have hexists : ∃ j, Closes b s i j := ⟨j, hj⟩
    have hfound := (findClosing_eq_some_iff hb hi).mpr
      ⟨Nat.find_spec hexists, fun k hk => Nat.find_min' hexists hk⟩
    rw [hnone] at hfound
    cases hfound
  · intro hno
    rw [Option.eq_none_iff_forall_ne_some]
    intro j hj
    exact hno j ((findClosing_eq_some_iff hb hi).mp hj).1

/-- Closing brackets in a literal, in both kinds of comment and behind a stray quote are passed
over. -/
theorem findClosing_past_literals :
    let s := "f \x7b'\x7d' /*\x7d*/ //\x7d\n it's \x7d\n\x7b\x7d\x7d".toList
    curly.opening ≠ curly.closing ∧ s[2]? = some curly.opening ∧
      IsLeast {j | Closes curly s 2 j} 27 := by
  intro s
  have hne : curly.opening ≠ curly.closing := by decide
  have hopening : s[2]? = some curly.opening := by decide
  have hfound : findClosing curly s 2 = some 27 := by decide
  exact ⟨hne, hopening, (((findClosing_isLeast_closes hne s 2).2 2 rfl hopening).1 27).mp hfound⟩

end ComponentCatalog.Code
