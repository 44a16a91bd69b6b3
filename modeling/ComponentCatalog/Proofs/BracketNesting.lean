import Mathlib.Order.Interval.Set.Basic
import ComponentCatalog.Proofs.CodeView

/-!
Brackets and their partners are local and properly nested: a block is found by its own characters
alone, and the blocks inside it are found by the searches that begin in its code.
-/
namespace ComponentCatalog.Code

open Text

/-- Only for a slash does it matter in code what comes next. -/
theorem read_shown_eq {c : Char} (hc : c ≠ '/') (next? other? : Option Char) (mode : Mode) :
    (mode.read c next?).1 = (mode.read c other?).1 := by
  cases mode with
  | code => simp [Mode.read, hc]
  | blockComment => simp only [Mode.read]; split <;> split <;> rfl
  | _ => rfl

/-- The view of a part that ends in no slash does not depend on what follows the part. -/
theorem take_codeView_eq {c : Char} (hc : c ≠ '/') (u rest other : Text) (mode : Mode) :
    (codeView mode (u ++ c :: rest)).take (u.length + 1) =
      (codeView mode (u ++ c :: other)).take (u.length + 1) := by
  induction u generalizing mode with
  | nil =>
    have hshown := read_shown_eq hc rest.head? other.head? mode
    simp [codeView, hshown]
  | cons d u ih =>
    have hnext : (u ++ c :: rest).head? = (u ++ c :: other).head? := by cases u <;> rfl
    rw [List.cons_append, List.cons_append, codeView, codeView, hnext, List.length_cons,
      List.take_succ_cons, List.take_succ_cons, ih]

theorem getElem?_of_codeView {mode : Mode} {s : Text} {n : Nat} {c : Char}
    (h : (codeView mode s)[n]? = some (some c)) : s[n]? = some c := by
  induction s generalizing mode n with
  | nil => cases n <;> cases h
  | cons d rest ih =>
    cases n with
    | zero =>
      rw [codeView] at h
      dsimp only [List.getElem?_cons_zero] at h ⊢
      split at h <;> simp_all
    | succ n =>
      rw [codeView] at h
      exact ih h

/-- What is read as code is read alike in code. -/
theorem read_of_shown {mode after : Mode} {c : Char} {next? : Option Char}
    (h : mode.read c next? = (true, after)) : Mode.code.read c next? = (true, after) := by
  cases mode with
  | code => exact h
  | literal mark =>
    simp only [Mode.read] at h
    split at h
    · cases h
    · split at h
      · cases h
      · split at h
        next hfeed =>
          obtain ⟨rfl, -⟩ := hfeed
          cases h
          rfl
        · cases h
  | lineComment =>
    simp only [Mode.read] at h
    split at h
    next hfeed =>
      cases h
      subst hfeed
      rfl
    · cases h
  | blockComment =>
    simp only [Mode.read] at h
    split at h <;> cases h
  | escape mark => cases h
  | blockOpening => cases h
  | blockClosing => cases h

/-- From a character that is read as code on, a reading goes as one that begins there. -/
theorem drop_codeView {mode : Mode} {s : Text} {n : Nat} {c : Char}
    (h : (codeView mode s)[n]? = some (some c)) :
    (codeView mode s).drop n = codeView .code (s.drop n) := by
  induction s generalizing mode n with
  | nil => cases n <;> cases h
  | cons d rest ih =>
    cases n with
    | succ n =>
      rw [codeView] at h ⊢
      exact ih h
    | zero =>
      rcases hread : mode.read d rest.head? with ⟨isCode, after⟩
      cases isCode with
      | true =>
        rw [List.drop_zero, List.drop_zero, codeView_shown _ hread,
          codeView_shown _ (read_of_shown hread)]
      | false =>
        rw [codeView_hidden _ hread] at h
        cases h

section Search

variable {b : Bracket} (hb : b.opening ≠ b.closing) {depth : Int} {offset j : Nat}
  {view : List (Option Char)}

theorem evens_congr {other : List (Option Char)} {m n : Nat}
    (h : view.take (n + 1) = other.take (n + 1)) (hm : m ≤ n) :
    Evens b depth view m ↔ Evens b depth other m := by
  have htake (l : List (Option Char)) : l.take (m + 1) = (l.take (n + 1)).take (m + 1) := by
    rw [List.take_take, Nat.min_eq_left (by omega)]
  have hget (l : List (Option Char)) : l[m]? = (l.take (n + 1))[m]? := by
    rw [List.getElem?_take_of_lt (by omega)]
  rw [Evens, Evens, htake view, htake other, hget view, hget other, h]

/-- A bracket stays open where the search does not end. -/
theorem one_le_add_shift {place : Option Char} (hdepth : 1 ≤ depth)
    (hopen : ¬(place = some b.closing ∧ depth = 1)) : 1 ≤ depth + shift b place := by
  unfold shift
  split
  · omega
  · split
    next hclose =>
      have hne : depth ≠ 1 := fun h => hopen ⟨hclose, h⟩
      omega
    · omega

/-- Before the partner at least one bracket is open. -/
theorem partnerFrom_drop (n : Nat) (hdepth : 1 ≤ depth)
    (hfound : partnerFrom b depth offset view = some j) (hn : offset + n ≤ j) :
    ∃ inside, 1 ≤ inside ∧ partnerFrom b inside (offset + n) (view.drop n) = some j := by
  induction n generalizing depth offset view with
  | zero => exact ⟨depth, hdepth, hfound⟩
  | succ n ih =>
    cases view with
    | nil => cases hfound
    | cons place view =>
      rw [partnerFrom] at hfound
      split at hfound
      · cases hfound
        omega
      next hopen =>
        obtain ⟨inside, hinside, h⟩ := ih (one_le_add_shift hdepth hopen) hfound (by omega)
        refine ⟨inside, hinside, ?_⟩
        rwa [List.drop_succ_cons, ← Nat.add_assoc, Nat.add_right_comm]

include hb

/-- The search reads no further than to the partner. -/
theorem partnerFrom_congr {other : List (Option Char)} {offset' n : Nat}
    (hfound : partnerFrom b depth offset view = some (offset + n))
    (h : view.take (n + 1) = other.take (n + 1)) :
    partnerFrom b depth offset' other = some (offset' + n) := by
  obtain ⟨k, hk, heven, hbefore⟩ := (partnerFrom_eq_some_iff hb).mp hfound
  obtain rfl : n = k := by omega
  refine (partnerFrom_eq_some_iff hb).mpr ⟨n, rfl, (evens_congr h le_rfl).mp heven, ?_⟩
  intro m hm
  rw [← evens_congr h hm.le]
  exact hbefore m hm

/-- With fewer open brackets the search ends earlier. -/
theorem partnerFrom_of_lt {inner : Int} (hinner : 1 ≤ inner) (hlt : inner < depth)
    (hfound : partnerFrom b depth offset view = some j) :
    ∃ m, partnerFrom b inner offset view = some m ∧ offset ≤ m ∧ m < j := by
  induction view generalizing depth inner offset with
  | nil => cases hfound
  | cons place view ih =>
    have hdeep : ¬(place = some b.closing ∧ depth = 1) := by omega
    rw [partnerFrom, if_neg hdeep] at hfound
    rw [partnerFrom]
    split
    · obtain ⟨n, hn, -, -⟩ := (partnerFrom_eq_some_iff hb).mp hfound
      exact ⟨offset, rfl, le_rfl, by omega⟩
    next hopen =>
      obtain ⟨m, hm, hle, hlt⟩ := ih (one_le_add_shift hinner hopen) (by omega) hfound
      exact ⟨m, hm, by omega, hlt⟩

end Search

/-- A partner is found only for an opening bracket. -/
theorem opening_of_findClosing {b : Bracket} {s : Text} {index : Int} {j : Nat}
    (h : findClosing b s index = some j) : ∃ i : Nat, index = i ∧ s[i]? = some b.opening := by
  by_contra hno
  rw [findClosing_eq_none fun i hi hopening => hno ⟨i, hi, hopening⟩] at h
  cases h

theorem ReadsCode.getElem? {s : Text} {i k : Nat} {c : Char} (h : ReadsCode s i k c) :
    s[k]? = some c := by
  have hdrop := getElem?_of_codeView h.2
  rwa [List.getElem?_drop, Nat.add_sub_cancel' h.1] at hdrop

/-- Readings agree from a character on that the earlier one reads as code. -/
theorem ReadsCode.trans {s : Text} {i k k' : Nat} {c c' : Char} (h : ReadsCode s i k c)
    (hle : k ≤ k') : ReadsCode s k k' c' ↔ ReadsCode s i k' c' := by
  have hview : codeView .code (s.drop k) = (codeView .code (s.drop i)).drop (k - i) := by
    rw [drop_codeView h.2, List.drop_drop, Nat.add_sub_cancel' h.1]
  have hplace : k - i + (k' - k) = k' - i := by
    have := h.1
    omega
  rw [ReadsCode, ReadsCode, hview, List.getElem?_drop, hplace]
  exact and_congr_left fun _ => ⟨fun _ => h.1.trans hle, fun _ => hle⟩

section Blocks

variable {b : Bracket} (hb : b.opening ≠ b.closing) {s : Text} {i j k : Nat}

include hb

theorem readsCode_of_findClosing (h : findClosing b s i = some j) : ReadsCode s i j b.closing := by
  obtain ⟨i', hi, hopening⟩ := opening_of_findClosing h
  obtain rfl := Int.natCast_inj.mp hi
  exact ((findClosing_eq_some_iff hb hopening).mp h).1.reads

/-- The block alone decides where it ends. -/
theorem findClosing_slice (hslash : b.closing ≠ '/') (h : findClosing b s i = some j)
    (before after : Text) :
    findClosing b (before ++ (slice s i (j + 1) ++ after)) before.length =
      some (before.length + (j - i)) := by
  obtain ⟨i', hi, hopening⟩ := opening_of_findClosing h
  obtain rfl := Int.natCast_inj.mp hi
  have hreads := readsCode_of_findClosing hb h
  obtain ⟨n, rfl⟩ := Nat.exists_eq_add_of_le hreads.1
  have hclosing : (s.drop i)[n]? = some b.closing := by
    rw [List.getElem?_drop, hreads.getElem?]
  obtain ⟨hn, hget⟩ := List.getElem?_eq_some_iff.mp hclosing
  have hlength : ((s.drop i).take n).length = n := by rw [List.length_take, Nat.min_eq_left hn.le]
  have hrest : s.drop i = (s.drop i).take n ++ b.closing :: (s.drop i).drop (n + 1) := by
    rw [← hget, ← List.drop_eq_getElem_cons hn, List.take_append_drop]
  have hslice : slice s i (i + n + 1) = (s.drop i).take (n + 1) := by
    rw [slice, List.drop_take, Nat.add_assoc, Nat.add_sub_cancel_left]
  have hblock : slice s i (i + n + 1) ++ after = (s.drop i).take n ++ b.closing :: after := by
    rw [hslice, List.take_add_one, hclosing, List.append_assoc]
    rfl
  have hhead : (before ++ (slice s i (i + n + 1) ++ after))[before.length]? = some b.opening := by
    rw [List.getElem?_append_right le_rfl, Nat.sub_self, ← List.head?_eq_getElem?,
      List.head?_append,
      hslice, List.head?_take, if_neg n.succ_ne_zero, List.head?_drop, hopening]
    rfl
  have htake := take_codeView_eq hslash ((s.drop i).take n) ((s.drop i).drop (n + 1)) after .code
  rw [← hrest, ← hblock, hlength] at htake
  rw [findClosing_eq_partnerFrom hb hopening] at h
  rw [findClosing_eq_partnerFrom hb hhead, List.drop_left, Nat.add_sub_cancel_left]
  exact partnerFrom_congr hb h htake

end Blocks

section Nesting

variable {b : Bracket} (hb : b.opening ≠ b.closing) (hmark : isStringMark b.opening = false)
  (hslash : b.opening ≠ '/') {s : Text} {i j k : Nat}

include hmark hslash

theorem codeView_opening (hi : s[i]? = some b.opening) :
    codeView .code (s.drop i) = some b.opening :: codeView .code (s.drop (i + 1)) := by
  obtain ⟨hlt, hget⟩ := List.getElem?_eq_some_iff.mp hi
  rw [List.drop_eq_getElem_cons hlt, hget]
  exact codeView_shown _ (by simp [Mode.read, hmark, hslash])

include hb

theorem partnerFrom_opening (hi : s[i]? = some b.opening) (depth : Int) :
    partnerFrom b depth i (codeView .code (s.drop i)) =
      partnerFrom b (depth + 1) (i + 1) (codeView .code (s.drop (i + 1))) := by
  rw [codeView_opening hmark hslash hi, partnerFrom, if_neg (by simp [hb]), shift, if_pos rfl]

/-- An opening bracket in the code of a block has its partner in the block. -/
theorem findClosing_inside (h : findClosing b s i = some j) (hik : i < k) (hkj : k < j)
    (hk : ReadsCode s i k b.opening) : ∃ m, findClosing b s k = some m ∧ k < m ∧ m < j := by
  obtain ⟨i', hi, hopening⟩ := opening_of_findClosing h
  obtain rfl := Int.natCast_inj.mp hi
  have hview :
      (codeView .code (s.drop (i + 1))).drop (k - (i + 1)) = codeView .code (s.drop k) := by
    have hdrop := drop_codeView hk.2
    rw [List.drop_drop, Nat.add_sub_cancel' hk.1, codeView_opening hmark hslash hopening] at hdrop
    rw [← hdrop, ← Nat.sub_sub, ← List.drop_succ_cons (a := some b.opening)]
    congr 1
    omega
  rw [findClosing_eq_partnerFrom hb hopening, partnerFrom_opening hb hmark hslash hopening] at h
  obtain ⟨inside, hinside, hfound⟩ := partnerFrom_drop (k - (i + 1)) (by omega) h (by omega)
  rw [hview, Nat.add_sub_cancel' hik, partnerFrom_opening hb hmark hslash hk.getElem?] at hfound
  obtain ⟨m, hm, hle, hlt⟩ := partnerFrom_of_lt hb le_rfl (by omega) hfound
  refine ⟨m, ?_, hle, hlt⟩
  rwa [findClosing_eq_partnerFrom hb hk.getElem?, partnerFrom_opening hb hmark hslash hk.getElem?]

/-- Two blocks in the code of a third are disjoint, or the later one is within the earlier. -/
theorem findClosing_disjoint_or_subset {k' m m' : Nat} (hk : ReadsCode s i k b.opening)
    (hm : findClosing b s k = some m) (hk' : ReadsCode s i k' b.opening)
    (hm' : findClosing b s k' = some m') (hlt : k < k') :
    Set.Icc k m ∩ Set.Icc k' m' = ∅ ∨ Set.Icc k' m' ⊆ Set.Icc k m := by
  rcases Nat.lt_trichotomy k' m with hinside | rfl | hapart
  · obtain ⟨_, hfound, -, hend⟩ :=
      findClosing_inside hb hmark hslash hm hlt hinside ((hk.trans hlt.le).mpr hk')
    rw [hm'] at hfound
    cases hfound
    exact .inr (Set.Icc_subset_Icc hlt.le hend.le)
  · have hclosing := (readsCode_of_findClosing hb hm).getElem?
    rw [hk'.getElem?] at hclosing
    exact absurd (Option.some.inj hclosing) hb
  · refine .inl (Set.eq_empty_iff_forall_notMem.mpr ?_)
    rintro x ⟨hx, hx'⟩
    exact absurd (hx'.1.trans hx.2) (Nat.not_le.mpr hapart)

end Nesting

/-- A block depends on its own characters alone; an opening bracket in its code has its partner in
it, and two such blocks are disjoint or one within the other. -/
theorem findClosing_local_and_nested {b : Bracket} (hb : b.opening ≠ b.closing)
    (hplain : ∀ c ∈ [b.opening, b.closing], isStringMark c = false ∧ c ≠ '/') {s : Text}
    {index : Int} {j : Nat} (h : findClosing b s index = some j) :
    ∃ i : Nat, index = i ∧
      (∀ before after, findClosing b (before ++ (slice s i (j + 1) ++ after)) before.length =
        some (before.length + (j - i))) ∧
      (∀ k, i < k → k < j → ReadsCode s i k b.opening →
        ∃ m, findClosing b s k = some m ∧ k < m ∧ m < j) ∧
      ∀ k m k' m', i < k → k < j → ReadsCode s i k b.opening → findClosing b s k = some m →
        i < k' → k' < j → ReadsCode s i k' b.opening → findClosing b s k' = some m' →
        Set.Icc k m ∩ Set.Icc k' m' = ∅ ∨ Set.Icc k m ⊆ Set.Icc k' m' ∨
          Set.Icc k' m' ⊆ Set.Icc k m := by
  obtain ⟨hmark, hslash⟩ := hplain b.opening List.mem_cons_self
  obtain ⟨-, hslash'⟩ := hplain b.closing (.tail _ List.mem_cons_self)
  obtain ⟨i, rfl, hopening⟩ := opening_of_findClosing h
  refine ⟨i, rfl, findClosing_slice hb hslash' h,
    fun k hik hkj hk => findClosing_inside hb hmark hslash h hik hkj hk, ?_⟩
  intro k m k' m' _ _ hk hm _ _ hk' hm'
  rcases Nat.lt_trichotomy k k' with hlt | rfl | hlt
  · have hcases := findClosing_disjoint_or_subset hb hmark hslash hk hm hk' hm' hlt
    exact hcases.imp_right .inr
  · rw [hm] at hm'
    cases hm'
    exact .inr (.inl subset_rfl)
  · have hcases := findClosing_disjoint_or_subset hb hmark hslash hk' hm' hk hm hlt
    exact hcases.imp (fun h => (Set.inter_comm _ _).trans h) .inl

/-- A block with a literal that holds a closing bracket, and another block in a block, inside of
one. -/
theorem findClosing_around_blocks :
    let s := "\x7b a: \x7b'\x7d'\x7d, b: \x7b\x7b\x7d\x7d \x7d;".toList
    curly.opening ≠ curly.closing ∧
      (∀ c ∈ [curly.opening, curly.closing], isStringMark c = false ∧ c ≠ '/') ∧
      findClosing curly s 0 = some 20 ∧
      (∀ before after, findClosing curly (before ++ (slice s 0 21 ++ after)) before.length =
        some (before.length + 20)) ∧
      (∃ m, findClosing curly s 5 = some m ∧ 5 < m ∧ m < 20) ∧
      (Set.Icc 5 9 ∩ Set.Icc 16 17 = ∅ ∨ Set.Icc 5 9 ⊆ Set.Icc 16 17 ∨
        Set.Icc 16 17 ⊆ Set.Icc 5 9) := by
  intro s
  have hne : curly.opening ≠ curly.closing := by decide
  have hplain : ∀ c ∈ [curly.opening, curly.closing], isStringMark c = false ∧ c ≠ '/' :=
    List.forall_mem_cons.mpr ⟨by decide, List.forall_mem_singleton.mpr (by decide)⟩
  have hfound : findClosing curly s 0 = some 20 := by decide
  obtain ⟨i, hi, hlocal, hinside, hnested⟩ := findClosing_local_and_nested hne hplain hfound
  obtain rfl : 0 = i := Int.natCast_inj.mp hi
  exact ⟨hne, hplain, hfound, hlocal, hinside 5 (by decide) (by decide) (by decide),
    hnested 5 9 16 17 (by decide) (by decide) (by decide) (by decide) (by decide) (by decide)
      (by decide) (by decide)⟩

end ComponentCatalog.Code
