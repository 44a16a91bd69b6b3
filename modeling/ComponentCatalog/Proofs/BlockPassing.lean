import ComponentCatalog.Proofs.Balanced
import ComponentCatalog.Proofs.BracketNesting

/-!
Blocks as a search steps over them. A text that the search for a closing bracket passes at any depth
may stand in a block, and a closed block is such a text, whatever literals, comments and blocks it
holds. What is captured of a block is the slice between its brackets.
-/
namespace ComponentCatalog.Code

open Text

/-- The search for a closing bracket passes the text without a change of depth. -/
def Passes (b : Bracket) (s : Text) : Prop :=
  ∀ (depth : Int) (offset : Nat) (rest : Text), 1 ≤ depth →
    closingFrom b 0 depth offset (s ++ rest) = closingFrom b 0 depth (offset + s.length) rest

section Passing

variable {b : Bracket} {s t : Text}

theorem Passes.append (hs : Passes b s) (ht : Passes b t) : Passes b (s ++ t) := by
  intro depth offset rest hdepth
  rw [List.append_assoc, hs depth offset _ hdepth, ht depth _ rest hdepth, List.length_append,
    Nat.add_assoc]

/-- Plain characters change no depth. -/
theorem passes_of_plain (hb : b ∈ brackets) (h : ∀ c ∈ s, isPlain c = true) : Passes b s := by
  intro depth offset rest hdepth
  have hbalanced : Balanced true s := .of_plain h
  refine closingFrom_balanced hb hbalanced hdepth fun hlast => ?_
  exact absurd (h '/' (List.mem_of_getLast? hlast)) (by decide)

theorem passes_separator (hb : b ∈ brackets) : Passes b ", ".toList := by
  intro depth offset rest hdepth
  exact closingFrom_balanced hb (.of_plain_or_comma (by decide)) hdepth (by simp)

theorem passes_join (hb : b ∈ brackets) {parts : List Text} (h : ∀ p ∈ parts, Passes b p) :
    Passes b (join ", ".toList parts) := by
  induction parts with
  | nil => exact fun _ _ _ _ => rfl
  | cons part parts ih =>
    have hpart := h part List.mem_cons_self
    cases parts with
    | nil => rwa [show join ", ".toList [part] = part from List.append_nil _]
    | cons next parts =>
      rw [join_cons_cons]
      exact hpart.append ((passes_separator hb).append (ih fun p hp => h p (.tail _ hp)))

end Passing

section Closed

variable {b : Bracket} (hb : b.opening ≠ b.closing)

include hb

/-- Where the search ends at one depth it goes on at a greater one. -/
theorem partnerFrom_past {depth extra : Int} (hdepth : 1 ≤ depth) (hextra : 1 ≤ extra)
    {offset n : Nat} {view : List (Option Char)}
    (h : partnerFrom b depth offset view = some (offset + n)) :
    partnerFrom b (depth + extra) offset view =
      partnerFrom b extra (offset + n + 1) (view.drop (n + 1)) := by
  induction view generalizing depth offset n with
  | nil => cases h
  | cons place view ih =>
    have hdeep : ¬(place = some b.closing ∧ depth + extra = 1) := by omega
    rw [partnerFrom, if_neg hdeep]
    rw [partnerFrom] at h
    split at h
    next hend =>
      obtain ⟨rfl, rfl⟩ := hend
      obtain rfl : n = 0 := by
        have := Option.some.inj h
        omega
      rw [shift_closing hb, Int.add_comm 1 extra, Int.add_neg_cancel_right]
      rfl
    next hopen =>
      obtain ⟨k, hk, -⟩ := (partnerFrom_eq_some_iff hb).mp h
      obtain rfl : n = k + 1 := by omega
      have hinner : 1 ≤ depth + shift b place := one_le_add_shift hdepth hopen
      have hcomm : depth + extra + shift b place = depth + shift b place + extra := by omega
      have hplace : offset + 1 + k = offset + (k + 1) := by omega
      rw [hcomm, ih hinner (hplace ▸ h), hplace, List.drop_succ_cons]

/-- Behind a closed block the code is read as from a beginning. -/
theorem drop_codeView_of_findClosing (hmark : isStringMark b.closing = false)
    (hslash : b.closing ≠ '/') {t : Text} {j : Nat} (h : findClosing b t (0 : Nat) = some j) :
    (codeView .code t).drop (j + 1) = codeView .code (t.drop (j + 1)) := by
  have hreads := readsCode_of_findClosing hb h
  have hview := drop_codeView hreads.2
  have hclosing : t[j]? = some b.closing := hreads.getElem?
  rw [Nat.sub_zero, List.drop_zero] at hview
  obtain ⟨hlt, hget⟩ := List.getElem?_eq_some_iff.mp hclosing
  have hshown : codeView .code (b.closing :: t.drop (j + 1)) =
      some b.closing :: codeView .code (t.drop (j + 1)) :=
    codeView_shown _ (by simp [Mode.read, hmark, hslash])
  rw [← List.tail_drop, hview, List.drop_eq_getElem_cons hlt, hget, hshown, List.tail_cons]

/-- A block that ends where its text ends is passed by the search around it. -/
theorem passes_of_findClosing
    (hplain : ∀ c ∈ [b.opening, b.closing], isStringMark c = false ∧ c ≠ '/') {s : Text} {j : Nat}
    (h : findClosing b s (0 : Nat) = some j) (hlength : s.length = j + 1) : Passes b s := by
  obtain ⟨hmark, hslash⟩ := hplain b.opening List.mem_cons_self
  obtain ⟨hmark', hslash'⟩ := hplain b.closing (.tail _ List.mem_cons_self)
  intro depth offset rest hdepth
  have hwhole : slice s 0 (j + 1) = s := by rw [slice, ← hlength, List.take_length, List.drop_zero]
  have hfound : findClosing b (s ++ rest) (0 : Nat) = some j := by
    have hlocal := findClosing_slice hb hslash' h [] rest
    rwa [hwhole, List.nil_append, List.length_nil, Nat.zero_add, Nat.sub_zero] at hlocal
  obtain ⟨i, hi, hopening⟩ := opening_of_findClosing hfound
  obtain rfl : 0 = i := Int.natCast_inj.mp hi
  have hview := codeView_opening hmark hslash hopening
  have hafter := drop_codeView_of_findClosing hb hmark' hslash' hfound
  have hinner := (findClosing_eq_partnerFrom hb hopening).symm.trans hfound
  rw [partnerFrom_opening hb hmark hslash hopening, Nat.zero_add, Int.zero_add] at hinner
  obtain ⟨n, rfl, -⟩ := (partnerFrom_eq_some_iff hb).mp hinner
  rw [List.drop_zero, Nat.zero_add] at hview
  rw [← hlength, List.drop_left, hlength, hview, Nat.add_comm 1 n, List.drop_succ_cons] at hafter
  -- The search from inside the block, counted from where the text begins in the one around it.
  have hinside := partnerFrom_add b 1 1 offset (codeView .code ((s ++ rest).drop 1))
  rw [hinner, Option.map_some, Nat.add_right_comm] at hinside
  rw [closingFrom_eq_partnerFrom, closingFrom_eq_partnerFrom, covered, covered, hview, partnerFrom,
    if_neg (by simp [hb]), shift, if_pos rfl, Int.add_comm depth 1, Nat.add_comm offset 1,
    partnerFrom_past hb le_rfl hdepth hinside, hafter, hlength]
  · congr 1
    omega
  · exact hb
  · exact hb

end Closed

section Captured

variable {b : Bracket} {s body : Text}

theorem findClosing_of_lt {i : Nat} (hi : i < s.length) :
    findClosing b s i = (closing? b (s.drop i)).map (· + i) := by
  rw [findClosing, fromPosition?, if_pos (by omega), Int.toNat_natCast, Option.bind_some]

theorem block?_of_findClosing {j : Nat} (h : findClosing b s (0 : Nat) = some j) :
    block? b s = some (slice s 1 j) := by
  obtain ⟨i, hi, hopening⟩ := opening_of_findClosing h
  obtain rfl : 0 = i := Int.natCast_inj.mp hi
  have hhead : s.head? = some b.opening := by rw [List.head?_eq_getElem?, hopening]
  have hlt : 0 < s.length := (List.getElem?_eq_some_iff.mp hopening).1
  rw [findClosing_of_lt hlt, List.drop_zero] at h
  obtain ⟨n, hn, rfl⟩ := Option.map_eq_some_iff.mp h
  rw [block?, if_pos hhead, hn]
  rfl

/-- What is captured stands between the opening bracket and its partner, or else the first closing
bracket of all. -/
theorem block?_eq_some (hb : b.opening ≠ b.closing) (h : block? b s = some body) :
    ∃ rest, s = b.opening :: (body ++ b.closing :: rest) ∧
      (closing? b s = some (body.length + 1) ∨ closing? b s = none ∧ b.closing ∉ body) := by
  rw [block?] at h
  split at h
  next hhead =>
    obtain ⟨tail, rfl⟩ := List.head?_eq_some_iff.mp hhead
    split at h
    next n hn =>
      obtain rfl := Option.some.inj h
      have hfound : findClosing b (b.opening :: tail) (0 : Nat) = some n := by
        rw [findClosing_of_lt (Nat.succ_pos _), List.drop_zero, hn]
        rfl
      -- The partner is not at the beginning, where the opening bracket stands.
      have hclosing := (readsCode_of_findClosing hb hfound).getElem?
      obtain ⟨m, rfl⟩ : ∃ m, n = m + 1 := by
        cases n with
        | zero => exact absurd (Option.some.inj hclosing) hb
        | succ m => exact ⟨m, rfl⟩
      rw [List.getElem?_cons_succ] at hclosing
      obtain ⟨hlt, hget⟩ := List.getElem?_eq_some_iff.mp hclosing
      have hbody : slice (b.opening :: tail) 1 (m + 1) = tail.take m := rfl
      refine ⟨tail.drop (m + 1), ?_, .inl ?_⟩
      · rw [hbody, ← hget, ← List.drop_eq_getElem_cons hlt, List.take_append_drop]
      · rw [hn, hbody, List.length_take, Nat.min_eq_left hlt.le]
    next hnone =>
      rw [List.tail_cons] at h
      obtain ⟨n, hn, rfl⟩ := Option.map_eq_some_iff.mp h
      obtain ⟨hlt, hget, hbefore⟩ := List.idxOf?_eq_some_iff.mp hn
      refine ⟨tail.drop (n + 1), ?_, .inr ⟨hnone, fun hmem => ?_⟩⟩
      · rw [← hget, ← List.drop_eq_getElem_cons hlt, List.take_append_drop]
      · obtain ⟨m, hm, hclosing⟩ := List.mem_iff_getElem.mp hmem
        rw [List.length_take] at hm
        rw [List.getElem_take] at hclosing
        exact hbefore m (by omega) hclosing
  next => cases h

end Captured

end ComponentCatalog.Code
