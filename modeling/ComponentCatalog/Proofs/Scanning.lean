import Mathlib.Data.List.TakeDrop
import Mathlib.Data.List.TakeWhile
import Mathlib.Data.Option.Basic
import ComponentCatalog.Text.Scan

/-!
Cuts and leftmost scans of a text that is put together from parts: what a scan does with a part that
it passes, and with one that it recognises.
-/
namespace ComponentCatalog.Text

-- Decided over the text; an instance for all characters would be found first otherwise.
instance decidableForallMem {s : Text} {p : Char → Prop} [DecidablePred p] :
    Decidable (∀ c ∈ s, p c) :=
  List.decidableBAll p s

/-- The code points of the blanks. -/
def blankCodes : List Nat :=
  List.range' 9 5 ++ List.range' 28 5 ++ [0x85, 0xA0, 0x1680] ++ List.range' 0x2000 11 ++
    [0x2028, 0x2029, 0x202F, 0x205F, 0x3000]

/-- A class that holds no blank is told by the blanks. -/
theorem isBlank_eq_false_of_forall {p : Char → Bool}
    (hnone : ∀ n ∈ blankCodes, p (Char.ofNat n) = false) {c : Char} (h : p c = true) :
    isBlank c = false := by
  by_contra hblank
  have hmem : c.toNat ∈ blankCodes := by
    simp only [isBlank, Bool.not_eq_false, Bool.or_eq_true, Bool.and_eq_true, decide_eq_true_eq,
      beq_iff_eq] at hblank
    simp only [blankCodes, List.mem_append, List.mem_cons, List.mem_range'_1, List.not_mem_nil,
      or_false]
    omega
  have hclass := hnone _ hmem
  rw [Char.ofNat_toNat, h] at hclass
  cases hclass

/-- No blank is a word character. -/
theorem isBlank_of_isWord {c : Char} (h : isWord c = true) : isBlank c = false :=
  isBlank_eq_false_of_forall (by decide +kernel) h

/-- No blank is a digit. -/
theorem isBlank_of_isDecimal {c : Char} (h : isDecimal c = true) : isBlank c = false :=
  isBlank_eq_false_of_forall (by decide +kernel) h

theorem stripStart_append_of_blank {u : Text} (h : ∀ c ∈ u, isBlank c = true) (s : Text) :
    stripStart (u ++ s) = stripStart s := by
  rw [stripStart, List.dropWhile_append_of_pos h]
  rfl

theorem isWord_of_isDigit {c : Char} (h : c.isDigit = true) : isWord c = true := by
  have hlast : c.toNat ≤ 57 := (Bool.and_eq_true_iff.mp h).2 |> of_decide_eq_true
  rw [isWord, if_pos (by omega), Char.isAlphanum, h, Bool.or_true, Bool.true_or]

theorem stripStart_cons {c : Char} (h : isBlank c = false) (rest : Text) :
    stripStart (c :: rest) = c :: rest := by
  rw [stripStart, List.dropWhile_cons_of_neg (by simp [h])]

theorem dropEndWhile_eq_nil {p : Char → Bool} {u : Text} (h : ∀ c ∈ u, p c = true) :
    dropEndWhile p u = [] := by
  induction u with
  | nil => rfl
  | cons c u ih =>
    rw [dropEndWhile, ih fun c hc => h c (.tail _ hc)]
    exact if_pos (h c List.mem_cons_self)

theorem dropEndWhile_append_of_pos {p : Char → Bool} {u : Text} (h : ∀ c ∈ u, p c = true)
    (s : Text) : dropEndWhile p (s ++ u) = dropEndWhile p s := by
  induction s with
  | nil => exact dropEndWhile_eq_nil h
  | cons c s ih => rw [List.cons_append, dropEndWhile, ih, dropEndWhile]

theorem length_dropEndWhile_le (p : Char → Bool) (s : Text) :
    (dropEndWhile p s).length ≤ s.length := by
  induction s with
  | nil => exact Nat.le_refl _
  | cons c s ih =>
    rw [dropEndWhile]
    split
    · split <;> simp
    · next hkept =>
      rw [List.length_cons, List.length_cons]
      exact Nat.succ_le_succ ih

theorem strip_append_of_blank {u : Text} (h : ∀ c ∈ u, isBlank c = true) (s : Text) :
    strip (s ++ u) = strip s := by
  rw [strip, strip, stripStart, List.dropWhile_append]
  split
  · next hempty =>
    have hu : u.dropWhile isBlank = [] := List.dropWhile_eq_nil_iff.mpr h
    rw [hu, stripStart, List.isEmpty_iff.mp hempty]
  · exact dropEndWhile_append_of_pos h _

theorem strip_blank_append {u : Text} (h : ∀ c ∈ u, isBlank c = true) (s : Text) :
    strip (u ++ s) = strip s := by
  rw [strip, stripStart_append_of_blank h, strip]

theorem isBlank_head_of_strip_eq_self {c : Char} {s : Text} (h : strip (c :: s) = c :: s) :
    isBlank c = false := by
  by_contra hblank
  have hlength : (strip (c :: s)).length ≤ s.length := by
    rw [strip, stripStart, List.dropWhile_cons_of_pos (by simpa using hblank)]
    exact Nat.le_trans (length_dropEndWhile_le _ _) (List.dropWhile_sublist _).length_le
  rw [h, List.length_cons] at hlength
  omega

theorem stripStart_eq_self_of_strip {s : Text} (h : strip s = s) (rest : Text) (hne : s ≠ []) :
    stripStart (s ++ rest) = s ++ rest := by
  cases s with
  | nil => exact absurd rfl hne
  | cons c s => exact stripStart_cons (isBlank_head_of_strip_eq_self h) _

theorem dropEndWhile_eq_self {p : Char → Bool} {s : Text} (h : ∀ c ∈ s, p c = false) :
    dropEndWhile p s = s := by
  induction s with
  | nil => rfl
  | cons c s ih =>
    rw [dropEndWhile, ih fun c hc => h c (.tail _ hc), h c List.mem_cons_self]
    cases s <;> rfl

theorem dropEndWhile_append {p : Char → Bool} {v : Text} (h : dropEndWhile p v ≠ []) (u : Text) :
    dropEndWhile p (u ++ v) = u ++ dropEndWhile p v := by
  induction u with
  | nil => rfl
  | cons c u ih =>
    rw [List.cons_append, dropEndWhile, ih]
    split
    · next hnil => exact absurd (List.append_eq_nil_iff.mp hnil).2 h
    · rfl

theorem strip_eq_self {s : Text} (h : ∀ c ∈ s, isBlank c = false) : strip s = s := by
  cases s with
  | nil => rfl
  | cons c s =>
    rw [strip, stripStart_cons (h c List.mem_cons_self), stripEnd, dropEndWhile_eq_self h]

theorem strip_of_word {s : Text} (h : ∀ c ∈ s, isWord c = true) : strip s = s :=
  strip_eq_self fun c hc => isBlank_of_isWord (h c hc)

/-- Between a character that is no blank and a stripped text nothing is stripped. -/
theorem strip_cons_append {c : Char} {v : Text} (hc : isBlank c = false) (hne : v ≠ [])
    (hv : strip v = v) (u : Text) : strip (c :: (u ++ v)) = c :: (u ++ v) := by
  have hstart : stripStart v = v := by
    have := stripStart_eq_self_of_strip hv [] hne
    rwa [List.append_nil] at this
  have hend : dropEndWhile isBlank v = v := by rwa [strip, hstart, stripEnd] at hv
  have happend := dropEndWhile_append (hend.symm ▸ hne) (c :: u)
  rw [strip, stripStart_cons hc, stripEnd, ← List.cons_append, happend, hend]

/-- The longest beginning in a class ends where a character is not in it. -/
theorem span_append {p : Char → Bool} {u rest : Text} (hu : ∀ c ∈ u, p c = true)
    (hrest : rest.head?.any p = false) : (u ++ rest).span p = (u, rest) := by
  have htake : (u ++ rest).takeWhile p = u := by
    rw [List.takeWhile_append_of_pos hu]
    cases rest with
    | nil => simp
    | cons c rest =>
      rw [List.takeWhile_cons_of_neg (by simpa using hrest), List.append_nil]
  have hdrop : (u ++ rest).dropWhile p = rest := by
    rw [List.dropWhile_append_of_pos hu]
    cases rest with
    | nil => rfl
    | cons c rest => exact List.dropWhile_cons_of_neg (by simpa using hrest)
  rw [List.span_eq_takeWhile_dropWhile, htake, hdrop]

theorem run?_append {p : Char → Bool} {u rest : Text} (hne : u ≠ []) (hu : ∀ c ∈ u, p c = true)
    (hrest : rest.head?.any p = false) : run? p (u ++ rest) = some (u, rest) := by
  rw [run?, span_append hu hrest]
  cases u with
  | nil => exact absurd rfl hne
  | cons c u => rfl

theorem word?_append {w rest : Text} (hne : w ≠ []) (hw : ∀ c ∈ w, isWord c = true)
    (hrest : rest.head?.any isWord = false) : word? (w ++ rest) = some (w, rest) :=
  run?_append hne hw hrest

/-- A name that ends in a word character is found on its own exactly if none follows it. -/
theorem afterName?_eq_some_of_getLast? {name s rest : Text}
    (hlast : name.getLast?.any isWord = true) :
    afterName? name s = some rest ↔ s = name ++ rest ∧ rest.head?.any isWord = false := by
  rw [afterName?, Option.filter_eq_some_iff, after?_eq_some, isBoundary, hlast]
  simp

theorem afterName?_eq_some {name s rest : Text} (hne : name ≠ [])
    (hword : ∀ c ∈ name, isWord c = true) :
    afterName? name s = some rest ↔ s = name ++ rest ∧ rest.head?.any isWord = false := by
  apply afterName?_eq_some_of_getLast?
  rw [List.getLast?_eq_some_getLast hne]
  exact hword _ (List.getLast_mem hne)

theorem one?_eq_some {p : Char → Bool} {s rest : Text} {c : Char} :
    one? p s = some (c, rest) ↔ s = c :: rest ∧ p c = true := by
  cases s with
  | nil => simp [one?]
  | cons d s => by_cases h : p d <;> simp [one?, h] <;> grind

theorem afterMost_of_neg {α : Type} {p : Char → Bool} {k : Text → Option α} {s : Text}
    (h : ∀ c, s.head? = some c → p c = false) : afterMost p k s = k s := by
  cases s with
  | nil => rfl
  | cons c s => rw [afterMost, h c rfl, if_neg Bool.false_ne_true]

theorem exists_of_afterMost {α : Type} {p : Char → Bool} {k : Text → Option α} {s : Text} {a : α}
    (h : afterMost p k s = some a) :
    ∃ u rest, (∀ c ∈ u, p c = true) ∧ s = u ++ rest ∧ k rest = some a := by
  induction s with
  | nil => exact ⟨[], [], by simp, rfl, h⟩
  | cons c s ih =>
    rw [afterMost] at h
    split at h
    · next hc =>
      rcases Option.or_eq_some_iff.mp h with h | ⟨-, h⟩
      · obtain ⟨u, rest, hu, rfl, hk⟩ := ih h
        refine ⟨c :: u, rest, ?_, rfl, hk⟩
        rintro d (_ | ⟨_, hd⟩)
        · exact hc
        · exact hu d hd
      · exact ⟨[], c :: s, by simp, rfl, h⟩
    · exact ⟨[], c :: s, by simp, rfl, h⟩

/-- A success behind some of the characters is found, or another behind more of them. -/
theorem isSome_afterMost {α : Type} {p : Char → Bool} {k : Text → Option α} {u rest : Text}
    (hu : ∀ c ∈ u, p c = true) (h : (k rest).isSome = true) :
    (afterMost p k (u ++ rest)).isSome = true := by
  induction u with
  | nil =>
    cases rest with
    | nil => exact h
    | cons c rest =>
      rw [List.nil_append, afterMost]
      split
      · rw [Option.isSome_or, h, Bool.or_true]
      · exact h
  | cons c u ih =>
    obtain ⟨hc, hu⟩ := List.forall_mem_cons.mp hu
    rw [List.cons_append, afterMost, if_pos hc, Option.isSome_or, ih hu, Bool.true_or]

/-- A success of `k` behind all of the characters is the one that is found. -/
theorem afterMost_append {α : Type} {p : Char → Bool} {k : Text → Option α} {u rest : Text} {a : α}
    (hu : ∀ c ∈ u, p c = true) (h : afterMost p k rest = some a) :
    afterMost p k (u ++ rest) = some a := by
  induction u with
  | nil => exact h
  | cons c u ih =>
    obtain ⟨hc, hu⟩ := List.forall_mem_cons.mp hu
    rw [List.cons_append, afterMost, if_pos hc, ih hu, Option.some_or]

theorem guard_bind {α : Type} {b : Bool} (h : b = true) (k : Unit → Option α) :
    (guard (b = true) >>= k) = k () := by
  subst h
  rfl

section Search

variable {n : Char} {needle s t : Text}

theorem startsWith_cons_of_ne {c : Char} (h : c ≠ n) :
    startsWith (n :: needle) (c :: s) = false := by
  rw [startsWith, after?, if_neg (Ne.symm h)]
  rfl

theorem startsWith_append (lead s : Text) : startsWith lead (lead ++ s) = true := by
  rw [startsWith, after?_append]
  rfl

theorem offset?_of_startsWith (h : startsWith needle s = true) : offset? needle s = some 0 := by
  cases s with
  | nil =>
    cases needle with
    | nil => rfl
    | cons n needle => cases h
  | cons c s => rw [offset?, if_pos h]

theorem offset?_append (h : n ∉ s) :
    offset? (n :: needle) (s ++ (n :: needle ++ t)) = some s.length := by
  induction s with
  | nil => exact offset?_of_startsWith (startsWith_append _ _)
  | cons c s ih =>
    rw [List.mem_cons, not_or] at h
    rw [List.cons_append, offset?, startsWith_cons_of_ne (Ne.symm h.1), ih h.2]
    rfl

theorem cut?_append (h : n ∉ s) :
    cut? (n :: needle) (s ++ (n :: needle ++ t)) = some (s, t) := by
  have hdrop : (s ++ (n :: needle ++ t)).drop (s.length + (n :: needle).length) = t := by
    rw [← List.append_assoc, List.drop_left' (by rw [List.length_append])]
  rw [cut?, offset?_append h, Option.map_some, List.take_left, hdrop]

theorem offset?_eq_none (h : n ∉ s) : offset? (n :: needle) s = none := by
  induction s with
  | nil => rfl
  | cons c s ih =>
    rw [List.mem_cons, not_or] at h
    rw [offset?, startsWith_cons_of_ne (Ne.symm h.1), ih h.2]
    rfl

theorem cut?_eq_none (h : n ∉ s) : cut? (n :: needle) s = none := by
  rw [cut?, offset?_eq_none h, Option.map_none]

theorem before_eq_self (h : n ∉ s) : before (n :: needle) s = s := by
  rw [before, cut?_eq_none h]
  rfl

theorem cut?_cons {c : Char} (h : startsWith needle (c :: s) = false) :
    cut? needle (c :: s) = (cut? needle s).map fun (a, b) => (c :: a, b) := by
  rw [cut?, cut?, offset?, h]
  cases offset? needle s with
  | none => rfl
  | some k =>
    simp only [Bool.false_eq_true, if_false, Option.map_some, List.take_succ_cons]
    rw [Nat.add_right_comm, List.drop_succ_cons]

theorem before_cons {c : Char} (h : startsWith needle (c :: s) = false) :
    before needle (c :: s) = c :: before needle s := by
  rw [before, before, cut?, cut?, offset?, h]
  cases offset? needle s <;> rfl

/-- A search passes a part without the first character of the needle. -/
theorem cut?_append_of_notMem (h : n ∉ s) :
    cut? (n :: needle) (s ++ t) = (cut? (n :: needle) t).map fun (a, b) => (s ++ a, b) := by
  induction s with
  | nil => simp
  | cons c s ih =>
    obtain ⟨hc, hs⟩ := not_or.mp (mt List.mem_cons.mpr h)
    rw [List.cons_append, cut?_cons (startsWith_cons_of_ne (Ne.symm hc)), ih hs, Option.map_map]
    rfl

theorem cut?_of_startsWith (h : startsWith needle t = true) :
    cut? needle t = some ([], t.drop needle.length) := by
  rw [cut?, offset?_of_startsWith h, Option.map_some, Nat.zero_add, List.take_zero]

/-- The first place of a needle leaves at least the text that any other place leaves. -/
theorem exists_cut? (gap needle rest : Text) :
    ∃ before after, cut? needle (gap ++ (needle ++ rest)) = some (before, after) ∧
      rest <:+ after := by
  induction gap with
  | nil =>
    have hoffset := offset?_of_startsWith (startsWith_append needle rest)
    refine ⟨[], rest, ?_, List.suffix_rfl⟩
    rw [List.nil_append, cut?, hoffset, Option.map_some, Nat.zero_add, List.take_zero,
      List.drop_left]
  | cons c gap ih =>
    rw [List.cons_append]
    by_cases h : startsWith needle (c :: (gap ++ (needle ++ rest))) = true
    · refine ⟨_, _, by rw [cut?, offset?_of_startsWith h, Option.map_some], ?_⟩
      have hrest : rest <:+ c :: (gap ++ (needle ++ rest)) := ⟨c :: gap ++ needle, by simp⟩
      refine List.suffix_of_suffix_length_le hrest (List.drop_suffix _ _) ?_
      simp only [List.length_drop, List.length_cons, List.length_append]
      omega
    · obtain ⟨before, after, hcut, hafter⟩ := ih
      refine ⟨c :: before, after, ?_, hafter⟩
      rw [cut?_cons (Bool.eq_false_iff.mpr h), hcut, Option.map_some]

theorem contains_append (needle s t : Text) : contains needle (s ++ (needle ++ t)) = true := by
  obtain ⟨before, after, hcut, -⟩ := exists_cut? s needle t
  obtain ⟨n, hoffset, -⟩ := Option.map_eq_some_iff.mp hcut
  rw [contains, hoffset]
  rfl

/-- A cut splits the text. -/
theorem cut?_eq_some {before after : Text} (h : cut? needle s = some (before, after)) :
    s = before ++ (needle ++ after) := by
  induction s generalizing before with
  | nil =>
    cases needle with
    | nil => cases h; rfl
    | cons n needle => cases h
  | cons c s ih =>
    by_cases hc : startsWith needle (c :: s) = true
    · obtain ⟨rest, hrest⟩ := Option.isSome_iff_exists.mp hc
      have hsplit := after?_eq_some.mp hrest
      rw [cut?, offset?_of_startsWith hc, Option.map_some, Nat.zero_add, List.take_zero, hsplit,
        List.drop_left] at h
      cases h
      exact hsplit
    · rw [cut?_cons (Bool.eq_false_iff.mpr hc)] at h
      obtain ⟨⟨a, b⟩, hcut, hab⟩ := Option.map_eq_some_iff.mp h
      cases hab
      rw [List.cons_append, ← ih hcut]

end Search

theorem upTo_append (u rest : Text) : upTo (u ++ rest) rest = u := by
  rw [upTo, List.length_append, Nat.add_sub_cancel, List.take_left]

theorem contains_iff {needle s : Text} : contains needle s = true ↔ needle <:+: s := by
  constructor
  · intro h
    obtain ⟨n, hn⟩ := Option.isSome_iff_exists.mp h
    have hcut : cut? needle s = some (s.take n, s.drop (n + needle.length)) := by rw [cut?, hn]; rfl
    exact ⟨_, _, (List.append_assoc _ _ _).trans (cut?_eq_some hcut).symm⟩
  · rintro ⟨before, rest, rfl⟩
    rw [List.append_assoc]
    exact contains_append needle before rest

/-- What ends otherwise than a text does not reach into it. -/
theorem contains_append_of_notMem {needle u v : Text} {c : Char} (hlast : needle.getLast? = some c)
    (hv : c ∉ v) : contains needle (u ++ v) = contains needle u := by
  rw [Bool.eq_iff_iff, contains_iff, contains_iff]
  refine ⟨?_, fun h => h.trans (List.prefix_append u v).isInfix⟩
  obtain ⟨lead, rfl⟩ := List.getLast?_eq_some_iff.mp hlast
  rintro ⟨a, b, hsplit⟩
  have hsplit : (a ++ lead) ++ c :: b = u ++ v := by simpa using hsplit
  rcases List.append_eq_append_iff.mp hsplit with ⟨t, rfl, ht⟩ | ⟨t, ht, rfl⟩
  · cases t with
    | nil => exact absurd (by rw [← List.nil_append v, ← ht]; exact List.mem_cons_self) hv
    | cons d t =>
      obtain ⟨rfl, -⟩ := List.cons_eq_cons.mp ht
      exact ⟨a, t, by simp⟩
  · exact absurd (by simp) hv

theorem not_infix_of_contains {needle s : Text} (h : contains needle s = false) :
    ¬needle <:+: s :=
  mt contains_iff.mpr (Bool.eq_false_iff.mp h)

theorem join_cons_cons (separator a b : Text) (more : List Text) :
    join separator (a :: b :: more) = a ++ (separator ++ join separator (b :: more)) := by
  simp [join, List.intercalate]

theorem notMem_join {c : Char} {separator : Text} {parts : List Text} (hseparator : c ∉ separator)
    (h : ∀ part ∈ parts, c ∉ part) : c ∉ join separator parts := by
  induction parts with
  | nil => exact List.not_mem_nil
  | cons part parts ih =>
    cases parts with
    | nil =>
      have hjoin : join separator [part] = part := List.append_nil _
      rw [hjoin]
      exact h part List.mem_cons_self
    | cons next parts =>
      rw [join_cons_cons, List.mem_append, List.mem_append, not_or, not_or]
      exact ⟨h part List.mem_cons_self, hseparator, ih fun p hp => h p (.tail _ hp)⟩

theorem notMem_of_mem_splitOn {separator : Char} {s piece : Text}
    (h : piece ∈ s.splitOn separator) : separator ∉ piece := by
  induction s generalizing piece with
  | nil =>
    rw [List.splitOn_nil, List.mem_singleton] at h
    exact h ▸ List.not_mem_nil
  | cons c s ih =>
    rw [List.splitOn_cons_eq_if_modifyHead] at h
    split at h
    · rcases List.mem_cons.mp h with rfl | h
      · exact List.not_mem_nil
      · exact ih h
    · next hc =>
      cases hpieces : s.splitOn separator with
      | nil => exact absurd hpieces (List.splitOn_ne_nil _ _)
      | cons first more =>
        rw [hpieces, List.modifyHead_cons] at h
        have hmem {p : Text} (hp : p ∈ first :: more) : separator ∉ p := ih (hpieces ▸ hp)
        rcases List.mem_cons.mp h with rfl | h
        · rw [List.mem_cons, not_or]
          exact ⟨fun he => hc (beq_iff_eq.mpr he.symm), hmem List.mem_cons_self⟩
        · exact hmem (.tail _ h)

/-- The parts between the commas of a list with blanks around its items. -/
def paddedParts : List Text → List Text
  | [] => ["  ".toList]
  | [part] => [' ' :: (part ++ [' '])]
  | part :: next :: parts => (' ' :: part) :: paddedParts (next :: parts)

theorem splitOn_padded {parts : List Text} (h : ∀ part ∈ parts, ',' ∉ part) :
    (' ' :: (join ", ".toList parts ++ [' '])).splitOn ',' = paddedParts parts := by
  induction parts with
  | nil => decide
  | cons part parts ih =>
    have hpart := h part List.mem_cons_self
    cases parts with
    | nil =>
      have hjoin : join ", ".toList [part] = part := List.append_nil _
      rw [hjoin, List.splitOn_eq_singleton (by simp [hpart]), paddedParts]
    | cons next parts =>
      have hlist : ' ' :: (join ", ".toList (part :: next :: parts) ++ [' ']) =
          (' ' :: part) ++ ',' :: (' ' :: (join ", ".toList (next :: parts) ++ [' '])) := by
        rw [join_cons_cons]
        simp
      rw [hlist, List.splitOn, List.splitOnP_append_cons _ _ (by decide), ← List.splitOn,
        ← List.splitOn, List.splitOn_eq_singleton (by simp [hpart]), ih fun p hp => h p (.tail _ hp),
        paddedParts]
      rfl

section Hits

variable {α : Type} {shape : Shape α} {offset : Nat} {previous : Option Char} {u rest : Text}

/-- The character before what follows a part. -/
def lastOf (previous : Option Char) (u : Text) : Option Char := u.foldl (fun _ c => some c) previous

@[simp] theorem lastOf_append (u v : Text) :
    lastOf previous (u ++ v) = lastOf (lastOf previous u) v := List.foldl_append

theorem hitsFrom_skip (u : Text) :
    hitsFrom shape u.length offset previous (u ++ rest) =
      hitsFrom shape 0 (offset + u.length) (lastOf previous u) rest := by
  induction u generalizing offset previous with
  | nil => rfl
  | cons c u ih =>
    rw [List.cons_append, List.length_cons, hitsFrom, ih, lastOf, lastOf, List.foldl_cons]
    congr 1
    omega

/-- A scan passes a part in which the shape is recognised nowhere. -/
theorem hitsFrom_pass
    (h : ∀ v c w, u = v ++ c :: w → ∀ o p, shape ⟨o, p, c :: (w ++ rest)⟩ = none) :
    hitsFrom shape 0 offset previous (u ++ rest) =
      hitsFrom shape 0 (offset + u.length) (lastOf previous u) rest := by
  induction u generalizing offset previous with
  | nil => rfl
  | cons c u ih =>
    rw [List.cons_append, hitsFrom, h [] c u rfl offset previous]
    dsimp only
    rw [ih, lastOf, lastOf, List.foldl_cons, List.length_cons]
    · congr 1
      omega
    · intro v d w hu
      exact h (c :: v) d w (by rw [hu, List.cons_append])

/-- A scan that recognises a part goes on after it. -/
theorem hitsFrom_hit {a : α} (hne : u ≠ [])
    (h : shape ⟨offset, previous, u ++ rest⟩ = some (a, u.length)) :
    hitsFrom shape 0 offset previous (u ++ rest) =
      a :: hitsFrom shape 0 (offset + u.length) (lastOf previous u) rest := by
  cases u with
  | nil => exact absurd rfl hne
  | cons c u =>
    rw [List.cons_append] at h ⊢
    rw [hitsFrom, h]
    dsimp only
    rw [List.length_cons, Nat.add_sub_cancel, hitsFrom_skip, lastOf, lastOf, List.foldl_cons]
    congr 2
    omega

theorem exists_hitsFrom {a : α} {length : Nat} (hne : rest ≠ [])
    (h : shape ⟨offset, previous, rest⟩ = some (a, length)) :
    ∃ more, hitsFrom shape 0 offset previous rest = a :: more := by
  cases rest with
  | nil => exact absurd rfl hne
  | cons c rest =>
    rw [hitsFrom, h]
    exact ⟨_, rfl⟩

end Hits

end ComponentCatalog.Text
