import ComponentCatalog.Code.Split
import ComponentCatalog.Proofs.Parts

/-!
The splitting of a text at its top level. It jumps over literals; here a reading goes one character
at a time, and the text is cut at the separators that the reading comes to outside of literals and
brackets. The parts of one line, joined again, are split into the same parts.
-/
namespace ComponentCatalog.Code

open Text

/-- Where a reading stands in a literal, if in one. -/
inductive Quoting where
  | outside
  | inside (mark : Char)
  /-- Behind a backslash. -/
  | escaped (mark : Char)
  deriving DecidableEq

/-- Whether a character stands outside of literals, and where the reading stands after it. A line
feed ends a literal that is not between backticks, and is outside of it. -/
def Quoting.read (c : Char) : Quoting → Bool × Quoting
  | .outside => if isStringMark c then (false, .inside c) else (true, .outside)
  | .inside mark =>
    if c = '\\' then (false, .escaped mark)
    else if c = mark then (false, .outside)
    else if c = '\n' ∧ mark ≠ '\x60' then (true, .outside)
    else (false, .inside mark)
  | .escaped mark => (false, .inside mark)

/-- The number of open brackets after a character, which is never below zero. -/
def depthAfter (c : Char) (depth : Nat) : Nat :=
  if isOpening c then depth + 1 else if isClosing c then depth - 1 else depth

/-- How far a reading has come. -/
structure Progress where
  quoting : Quoting
  depth : Nat
  deriving DecidableEq

namespace Progress

/-- No literal and no bracket is open. -/
def start : Progress := ⟨.outside, 0⟩

def step (st : Progress) (c : Char) : Progress :=
  let (outside, quoting) := st.quoting.read c
  ⟨quoting, if outside then depthAfter c st.depth else st.depth⟩

/-- The character stands outside of literals and brackets. -/
def atTop (st : Progress) (c : Char) : Bool := (st.quoting.read c).1 && st.depth == 0

/-- How far a reading has come behind a text. -/
def run (st : Progress) (s : Text) : Progress := s.foldl step st

end Progress

/-- The separator stands at the place, and no literal and no bracket encloses it. -/
def isCut (separator : Char) (st : Progress) (s : Text) (i : Nat) : Bool :=
  s[i]? == some separator && (st.run (s.take i)).atTop separator

/-- The places of the top-level separators. -/
def cuts (separator : Char) (st : Progress) (s : Text) : List Nat :=
  (List.range s.length).filter (isCut separator st s)

/-- The segments between places whose characters belong to none. -/
def segments (places : List Nat) (s : Text) : List Text :=
  List.zipWith (slice s) (0 :: places.map (· + 1)) (places ++ [s.length])

/-- The segments, put together one character at a time. -/
def partsFrom (separator : Char) : Progress → Text → List Text
  | _, [] => [[]]
  | st, c :: rest =>
    if c = separator ∧ st.atTop c then [] :: partsFrom separator (st.step c) rest
    else prepend c (partsFrom separator (st.step c) rest)

variable {separator c : Char} {st : Progress} {s u t rest : Text} {depth : Nat}

section Steps

theorem step_outside (hmark : isStringMark c = false) :
    Progress.step ⟨.outside, depth⟩ c = ⟨.outside, depthAfter c depth⟩ := by
  simp [Progress.step, Quoting.read, hmark]

theorem partsFrom_hidden {quoting : Quoting} (after : Quoting) (h : quoting.read c = (false, after)) :
    partsFrom separator ⟨quoting, depth⟩ (c :: rest) =
      prepend c (partsFrom separator ⟨after, depth⟩ rest) := by
  have htop : ¬(c = separator ∧ Progress.atTop ⟨quoting, depth⟩ c = true) := by
    simp [Progress.atTop, h]
  have hstep : Progress.step ⟨quoting, depth⟩ c = ⟨after, depth⟩ := by
    simp [Progress.step, h]
  rw [partsFrom, if_neg htop, hstep]

/-- The parts of a text that stands in a literal up to a place. -/
def partsBehind (separator : Char) : (skip depth : Nat) → Text → List Text
  | 0, depth, s => partsFrom separator ⟨.outside, depth⟩ s
  | _ + 1, _, [] => [[]]
  | skip + 1, depth, c :: rest => prepend c (partsBehind separator skip depth rest)

theorem partsFrom_inside {mark : Char} (hmark : isStringMark mark = true) (s : Text) :
    partsFrom separator ⟨.inside mark, depth⟩ s =
      partsBehind separator (stringTail mark s) depth s := by
  have hne : mark ≠ '\\' := by
    rintro rfl
    cases hmark
  fun_induction stringTail mark s with
  | case1 => rfl
  | case2 => rw [partsFrom_hidden _ rfl, partsBehind, partsBehind, partsFrom, partsFrom]
  | case3 c rest ih =>
    rw [partsFrom_hidden _ rfl, partsFrom_hidden _ rfl, ih]
    rfl
  | case4 rest _ _ =>
    rw [partsFrom_hidden .outside (by simp [Quoting.read, hne])]
    rfl
  | case5 c rest _ _ hmark' hfeed =>
    -- The line feed is read as it is outside.
    obtain ⟨rfl, hmark''⟩ := hfeed
    have hread : Quoting.read '\n' (.inside mark) = Quoting.read '\n' .outside := by
      simp [Quoting.read, hmark', hmark'', isStringMark]
    rw [partsBehind, partsFrom, partsFrom, Progress.atTop, Progress.step, hread]
    rfl
  | case6 c rest hlast hescape hmark' hfeed ih =>
    have hbackslash : c ≠ '\\' := by
      rintro rfl
      cases rest with
      | nil => exact hlast rfl rfl
      | cons d rest => exact hescape d rest rfl rfl
    rw [partsFrom_hidden (.inside mark)
      (by simp [Quoting.read, hbackslash, hmark', hfeed]), ih]
    rfl

/-- The splitting, which jumps over literals, comes to the same parts. -/
theorem piecesFrom_eq_partsBehind (hopening : isOpening separator = false) (skip depth : Nat)
    (s : Text) :
    piecesFrom (some separator) skip depth s = partsBehind separator skip depth s := by
  -- While a literal is jumped over both sides only count down, which leaves one character that is
  -- read outside of literals: a string mark, an opening bracket, a closing one, or a separator.
  induction s generalizing skip depth with
  | nil => cases skip <;> rfl
  | cons c rest ih =>
    cases skip with
    | succ skip => rw [piecesFrom, ih, partsBehind]
    | zero =>
      rw [piecesFrom, partsBehind]
      cases hmark : isStringMark c with
      | true =>
        rw [if_pos rfl, ih, partsFrom_hidden (.inside c) (by simp [Quoting.read, hmark]),
          partsFrom_inside hmark]
      | false =>
        have htop : Progress.atTop ⟨.outside, depth⟩ c = (depth == 0) := by
          simp [Progress.atTop, Quoting.read, hmark]
        rw [if_neg Bool.false_ne_true, partsFrom, step_outside hmark, htop, depthAfter]
        cases hopen : isOpening c with
        | true =>
          have hne : c ≠ separator := by
            rintro rfl
            exact Bool.false_ne_true (hopening.symm.trans hopen)
          rw [if_pos rfl, if_neg fun h => hne h.1, if_pos rfl, ih, partsBehind]
        | false =>
          rw [if_neg Bool.false_ne_true, if_neg Bool.false_ne_true]
          by_cases hclose : isClosing c = true ∧ 0 < depth
          · have htop : ¬(c = separator ∧ (depth == 0) = true) := fun h =>
              Nat.ne_of_gt hclose.2 (beq_iff_eq.mp h.2)
            rw [if_pos hclose, if_neg htop, if_pos hclose.1, ih, partsBehind]
          · -- A closing bracket that closes nothing leaves the depth at zero.
            have hdepth : (if isClosing c = true then depth - 1 else depth) = depth := by
              split
              next h =>
                have hzero : ¬0 < depth := fun hpos => hclose ⟨h, hpos⟩
                omega
              next => rfl
            rw [if_neg hclose, hdepth]
            by_cases hcut : c = separator ∧ depth = 0
            · obtain ⟨rfl, rfl⟩ := hcut
              rw [if_pos ⟨rfl, rfl⟩, if_pos ⟨rfl, rfl⟩, ih, partsBehind]
            · rw [if_neg fun h => hcut ⟨(Option.some.inj h.1).symm, h.2⟩,
                if_neg fun h => hcut ⟨h.1, beq_iff_eq.mp h.2⟩, ih, partsBehind]

end Steps

section Cutting

/-- The cuts of a text are the first place, if the reading cuts there, and those of the rest. -/
theorem cuts_cons : cuts separator st (c :: rest) =
    (if c = separator ∧ st.atTop c then [0] else []) ++
      (cuts separator (st.step c) rest).map (· + 1) := by
  have hrest : (List.range rest.length).filter
      (fun i => isCut separator st (c :: rest) (i + 1)) =
        cuts separator (st.step c) rest := rfl
  have hhead : isCut separator st (c :: rest) 0 = decide (c = separator ∧ st.atTop c) := by
    by_cases h : c = separator
    · subst h
      simp [isCut, Progress.run]
    · simp [isCut, h]
  rw [cuts, List.length_cons, List.range_succ_eq_map, List.filter_cons, List.filter_map, hhead]
  simp only [Function.comp_def, Nat.succ_eq_add_one, hrest, decide_eq_true_eq]
  split <;> rfl

/-- Behind the first character the places are one further. -/
theorem zipWith_slice_succ (firsts lasts : List Nat) :
    List.zipWith (slice (c :: rest)) (firsts.map (· + 1)) (lasts.map (· + 1)) =
      List.zipWith (slice rest) firsts lasts := List.zipWith_map

theorem ends_cons (places : List Nat) :
    places.map (· + 1) ++ [(c :: rest).length] = (places ++ [rest.length]).map (· + 1) := by
  rw [List.map_append, List.length_cons]
  rfl

theorem segments_cons_zero (places : List Nat) :
    segments (0 :: places.map (· + 1)) (c :: rest) = [] :: segments places rest := by
  rw [segments, List.cons_append, List.zipWith_cons_cons, ends_cons, zipWith_slice_succ, segments]
  rfl

theorem segments_map_succ (places : List Nat) :
    segments (places.map (· + 1)) (c :: rest) = prepend c (segments places rest) := by
  rw [segments, ends_cons, segments]
  cases hends : places ++ [rest.length] with
  | nil => simp at hends
  | cons last lasts =>
    rw [List.map_cons, List.zipWith_cons_cons, zipWith_slice_succ, List.zipWith_cons_cons, prepend]
    rfl

theorem partsFrom_eq_segments (st : Progress) (s : Text) :
    partsFrom separator st s = segments (cuts separator st s) s := by
  induction s generalizing st with
  | nil => rfl
  | cons c rest ih =>
    rw [partsFrom, cuts_cons]
    split
    · rw [List.singleton_append, segments_cons_zero, ih]
    · rw [List.nil_append, segments_map_succ, ih]

end Cutting

/-- The reading cuts the text nowhere. -/
def Whole (separator : Char) (st : Progress) (u : Text) : Prop := partsFrom separator st u = [u]

/-- A part that is read to its end with no literal and no bracket left open. -/
structure Closed (separator : Char) (u : Text) : Prop where
  whole : Whole separator .start u
  run_eq : Progress.start.run u = .start
  oneLine : '\n' ∉ u

/-- Parts that each are whole; all but the last are closed. -/
inductive Rejoinable (separator : Char) : List Text → Prop where
  | nil : Rejoinable separator []
  | last {u : Text} : Whole separator .start u → Rejoinable separator [u]
  | cons {u : Text} {parts : List Text} : Closed separator u → Rejoinable separator parts →
      Rejoinable separator (u :: parts)

section Parts

theorem partsFrom_ne_nil (st : Progress) (s : Text) : partsFrom separator st s ≠ [] := by
  cases s with
  | nil => exact List.cons_ne_nil _ _
  | cons c rest =>
    rw [partsFrom]
    split
    · exact List.cons_ne_nil _ _
    · unfold prepend
      split <;> exact List.cons_ne_nil _ _

theorem whole_cons : Whole separator st (c :: u) ↔
    ¬(c = separator ∧ st.atTop c) ∧ Whole separator (st.step c) u := by
  rw [Whole, partsFrom, Whole]
  split
  next hcut =>
    constructor
    · intro h
      cases h
    · intro h
      exact absurd hcut h.1
  next hcut =>
    cases hparts : partsFrom separator (st.step c) u with
    | nil => exact absurd hparts (partsFrom_ne_nil _ _)
    | cons part more => simp [prepend, hcut]

theorem Whole.of_append (h : Whole separator st (u ++ t)) : Whole separator st u := by
  induction u generalizing st with
  | nil => rfl
  | cons c u ih =>
    obtain ⟨hcut, hrest⟩ := whole_cons.mp h
    exact whole_cons.mpr ⟨hcut, ih hrest⟩

theorem step_separator (hmark : isStringMark separator = false)
    (hopen : isOpening separator = false) : Progress.start.step separator = .start := by
  rw [Progress.start, step_outside hmark]
  simp [depthAfter, hopen]

/-- After a closed part the reading goes on at the separator as at the beginning. -/
theorem partsFrom_append (hmark : isStringMark separator = false)
    (hopen : isOpening separator = false) (hwhole : Whole separator st u)
    (hrun : st.run u = .start) (t : Text) :
    partsFrom separator st (u ++ separator :: t) = u :: partsFrom separator .start t := by
  induction u generalizing st with
  | nil =>
    have hst : st = .start := hrun
    have htop : Progress.start.atTop separator = true := by
      simp [Progress.start, Progress.atTop, Quoting.read, hmark]
    rw [hst, List.nil_append, partsFrom, if_pos ⟨rfl, htop⟩, step_separator hmark hopen]
  | cons c u ih =>
    obtain ⟨hcut, hrest⟩ := whole_cons.mp hwhole
    rw [List.cons_append, partsFrom, if_neg hcut, ih hrest hrun, prepend]

theorem partsFrom_join (hmark : isStringMark separator = false)
    (hopen : isOpening separator = false) {parts : List Text} (h : Rejoinable separator parts)
    (hne : parts ≠ []) : partsFrom separator .start (join [separator] parts) = parts := by
  induction h with
  | nil => exact absurd rfl hne
  | @last u hwhole =>
    have hjoin : join [separator] [u] = u := List.append_nil _
    rw [hjoin]
    exact hwhole
  | @cons u parts hclosed _ ih =>
    cases parts with
    | nil =>
      have hjoin : join [separator] [u] = u := List.append_nil _
      rw [hjoin]
      exact hclosed.whole
    | cons next parts =>
      rw [join_cons_cons, List.singleton_append,
        partsFrom_append hmark hopen hclosed.whole hclosed.run_eq, ih (List.cons_ne_nil _ _)]

end Parts

section Blanks

/-- A blank neither begins a literal nor is a bracket. -/
theorem inert_of_isBlank (h : isBlank c = true) :
    isStringMark c = false ∧ isOpening c = false ∧ isClosing c = false := by
  have hnone : (isStringMark c || isOpening c || isClosing c) = false := by
    by_contra hclass
    have hblank := isBlank_eq_false_of_forall
      (p := fun c => isStringMark c || isOpening c || isClosing c) (by decide +kernel)
      (Bool.not_eq_false _ ▸ hclass)
    exact Bool.false_ne_true (hblank.symm.trans h)
  simpa [and_assoc] using hnone

theorem step_blank (h : isBlank c = true) (depth : Nat) :
    Progress.step ⟨.outside, depth⟩ c = ⟨.outside, depth⟩ := by
  obtain ⟨hmark, hopen, hclose⟩ := inert_of_isBlank h
  rw [step_outside hmark]
  simp [depthAfter, hopen, hclose]

theorem run_append (st : Progress) (u t : Text) : st.run (u ++ t) = (st.run u).run t :=
  List.foldl_append

theorem run_blanks (h : ∀ b ∈ u, isBlank b = true) : Progress.start.run u = .start := by
  induction u with
  | nil => rfl
  | cons c u ih =>
    obtain ⟨hc, hu⟩ := List.forall_mem_cons.mp h
    rw [Progress.run, List.foldl_cons, Progress.start, step_blank hc]
    exact ih hu

theorem Whole.of_blanks_append (hlead : ∀ b ∈ u, isBlank b = true)
    (h : Whole separator .start (u ++ t)) : Whole separator .start t := by
  induction u with
  | nil => exact h
  | cons c u ih =>
    obtain ⟨hc, hu⟩ := List.forall_mem_cons.mp hlead
    obtain ⟨-, hrest⟩ := whole_cons.mp h
    rw [Progress.start, step_blank hc] at hrest
    exact ih hu hrest

/-- Only the marks of literals begin one. -/
def Quoting.Marked : Quoting → Prop
  | .outside => True
  | .inside mark => isStringMark mark = true
  | .escaped mark => isStringMark mark = true

theorem Quoting.Marked.read {quoting : Quoting} (h : quoting.Marked) (c : Char) :
    (quoting.read c).2.Marked := by
  cases quoting with
  | outside =>
    rw [Quoting.read]
    split
    next hmark => exact hmark
    next => trivial
  | inside mark =>
    rw [Quoting.read]
    split_ifs <;> first | exact h | trivial
  | escaped mark => exact h

theorem marked_run (h : st.quoting.Marked) (u : Text) : (st.run u).quoting.Marked := by
  induction u generalizing st with
  | nil => exact h
  | cons c u ih => exact ih (h.read c)

/-- A blank that is no line feed ends no literal and no bracket. -/
theorem eq_start_of_step (hmarked : st.quoting.Marked) (hblank : isBlank c = true)
    (hfeed : c ≠ '\n') (h : st.step c = .start) : st = .start := by
  obtain ⟨quoting, depth⟩ := st
  cases quoting with
  | outside => rwa [step_blank hblank] at h
  | inside mark =>
    have hmark : c ≠ mark := by
      rintro rfl
      exact Bool.false_ne_true ((inert_of_isBlank hblank).1.symm.trans hmarked)
    simp only [Progress.step, Quoting.read, if_neg hmark, hfeed, false_and, if_false] at h
    split_ifs at h <;> cases h
  | escaped mark => cases h

theorem eq_start_of_run (hmarked : st.quoting.Marked) (hblank : ∀ b ∈ u, isBlank b = true)
    (hfeed : '\n' ∉ u) (h : st.run u = .start) : st = .start := by
  induction u generalizing st with
  | nil => exact h
  | cons c u ih =>
    obtain ⟨hc, hu⟩ := List.forall_mem_cons.mp hblank
    rw [List.mem_cons, not_or] at hfeed
    obtain ⟨hcfeed, hufeed⟩ := hfeed
    have hnext := ih (hmarked.read c) hu hufeed h
    exact eq_start_of_step hmarked hc (Ne.symm hcfeed) hnext

theorem Whole.strip (h : Whole separator .start u) : Whole separator .start (strip u) := by
  obtain ⟨lead, trail, hlead, -, hu⟩ := exists_strip u
  rw [hu] at h
  exact (h.of_blanks_append hlead).of_append

theorem Closed.strip (h : Closed separator u) : Closed separator (strip u) where
  whole := h.whole.strip
  run_eq := by
    obtain ⟨lead, trail, hlead, htrail, hu⟩ := exists_strip u
    have hrun := h.run_eq
    have hfeed := h.oneLine
    rw [hu] at hfeed
    rw [hu, run_append, run_blanks hlead, run_append] at hrun
    have hstart : Progress.start.quoting.Marked := trivial
    have hmarked := marked_run hstart (Text.strip u)
    exact eq_start_of_run hmarked htrail
      (fun hmem => hfeed (List.mem_append_right _ (List.mem_append_right _ hmem))) hrun
  oneLine := fun hmem => h.oneLine ((strip_isInfix u).subset hmem)

end Blanks

section Rejoin

variable {parts : List Text}

theorem eq_start_of_atTop (hc : c ≠ '\n') (h : st.atTop c = true) : st = .start := by
  obtain ⟨quoting, depth⟩ := st
  obtain ⟨hread, hdepth⟩ := Bool.and_eq_true_iff.mp h
  obtain rfl : depth = 0 := beq_iff_eq.mp hdepth
  cases quoting with
  | outside => rfl
  | inside mark =>
    simp only [Quoting.read, hc, false_and, if_false] at hread
    split_ifs at hread
  | escaped mark => cases hread

theorem rejoinable_cons (hwhole : Whole separator .start u) (hfeed : '\n' ∉ u)
    (hrun : parts ≠ [] → Progress.start.run u = .start) (h : Rejoinable separator parts) :
    Rejoinable separator (u :: parts) := by
  by_cases hnil : parts = []
  · rw [hnil]
    exact .last hwhole
  · exact .cons ⟨hwhole, hrun hnil, hfeed⟩ h

/-- The parts of one line: the first goes on with what was read before it, and is read to its end
unless it is the last. -/
theorem exists_partsFrom (hmark : isStringMark separator = false)
    (hopen : isOpening separator = false) (st : Progress) (hfeed : '\n' ∉ s) :
    ∃ part more, partsFrom separator st s = part :: more ∧ Whole separator st part ∧ '\n' ∉ part ∧
      (more ≠ [] → st.run part = .start) ∧ Rejoinable separator more := by
  induction s generalizing st with
  | nil => exact ⟨[], [], rfl, rfl, List.not_mem_nil, fun h => absurd rfl h, .nil⟩
  | cons c rest ih =>
    rw [List.mem_cons, not_or] at hfeed
    obtain ⟨hc, hrest⟩ := hfeed
    obtain ⟨part, more, hparts, hwhole, hpart, hrun, hmore⟩ := ih (st.step c) hrest
    rw [partsFrom]
    split
    next hcut =>
      obtain ⟨rfl, htop⟩ := hcut
      obtain rfl : st = .start := eq_start_of_atTop (Ne.symm hc) htop
      rw [step_separator hmark hopen] at hparts hwhole hrun ⊢
      exact ⟨[], _, rfl, rfl, List.not_mem_nil, fun _ => rfl,
        hparts ▸ rejoinable_cons hwhole hpart hrun hmore⟩
    next hcut =>
      refine ⟨c :: part, more, ?_, whole_cons.mpr ⟨hcut, hwhole⟩, ?_, hrun, hmore⟩
      · rw [hparts, prepend]
      · rw [List.mem_cons, not_or]
        exact ⟨hc, hpart⟩

theorem rejoinable_partsFrom (hmark : isStringMark separator = false)
    (hopen : isOpening separator = false) (hfeed : '\n' ∉ s) :
    Rejoinable separator (partsFrom separator .start s) := by
  obtain ⟨part, more, hparts, hwhole, hpart, hrun, hmore⟩ :=
    exists_partsFrom hmark hopen .start hfeed
  rw [hparts]
  exact rejoinable_cons hwhole hpart hrun hmore

theorem Rejoinable.map_strip (h : Rejoinable separator parts) :
    Rejoinable separator (parts.map strip) := by
  induction h with
  | nil => exact .nil
  | last hwhole => exact .last hwhole.strip
  | cons hclosed _ ih => exact .cons hclosed.strip ih

theorem Rejoinable.filter (p : Text → Bool) (h : Rejoinable separator parts) :
    Rejoinable separator (parts.filter p) := by
  induction h with
  | nil => exact .nil
  | @last u hwhole =>
    rw [List.filter_cons]
    split
    · exact .last hwhole
    · exact .nil
  | @cons u parts hclosed _ ih =>
    rw [List.filter_cons]
    split
    · exact .cons hclosed ih
    · exact ih

end Rejoin

theorem splitTopLevel_eq_partsFrom (hopen : isOpening separator = false) (s : Text) :
    splitTopLevel (some separator) s =
      ((partsFrom separator .start s).map strip).filter (· ≠ []) := by
  rw [splitTopLevel, piecesFrom_eq_partsBehind hopen]
  rfl

/-- The parts of one line, joined again, are split into the same parts. -/
theorem splitTopLevel_join_splitTopLevel (hmark : isStringMark separator = false)
    (hopen : isOpening separator = false) (hfeed : '\n' ∉ s) :
    splitTopLevel (some separator) (join [separator] (splitTopLevel (some separator) s)) =
      splitTopLevel (some separator) s := by
  have hparts := splitTopLevel_eq_partsFrom hopen s
  have hrejoin : Rejoinable separator (splitTopLevel (some separator) s) := by
    rw [hparts]
    exact ((rejoinable_partsFrom hmark hopen hfeed).map_strip).filter _
  have hstripped : ∀ u ∈ splitTopLevel (some separator) s, strip u = u ∧ u ≠ [] := by
    rw [hparts]
    intro u hu
    obtain ⟨hmem, hne⟩ := List.mem_filter.mp hu
    obtain ⟨part, -, rfl⟩ := List.mem_map.mp hmem
    exact ⟨strip_strip part, of_decide_eq_true hne⟩
  generalize splitTopLevel (some separator) s = parts at hrejoin hstripped ⊢
  by_cases hnil : parts = []
  · rw [hnil]
    rfl
  · have hmap : parts.map strip = parts :=
      (List.map_congr_left fun u hu => (hstripped u hu).1).trans (List.map_id parts)
    rw [splitTopLevel_eq_partsFrom hopen, partsFrom_join hmark hopen hrejoin hnil, hmap,
      List.filter_eq_self]
    intro u hu
    exact decide_eq_true (hstripped u hu).2

/-- The splitting cuts the text exactly at the separators outside of literals and brackets, and on
one line it is stable under rejoining. -/
theorem splitTopLevel_segments (hmark : isStringMark separator = false)
    (hopen : isOpening separator = false) (s : Text) :
    splitTopLevel (some separator) s =
        ((segments (cuts separator .start s) s).map strip).filter (· ≠ []) ∧
      ('\n' ∉ s →
        splitTopLevel (some separator) (join [separator] (splitTopLevel (some separator) s)) =
          splitTopLevel (some separator) s) := by
  constructor
  · rw [splitTopLevel_eq_partsFrom hopen, partsFrom_eq_segments]
  · exact splitTopLevel_join_splitTopLevel hmark hopen

/-- Commas in a literal and in brackets, a bracket that closes nothing, an empty part and a literal
without an end. -/
theorem splitTopLevel_segments_arguments :
    let s := "a, 'b\\',c' ,, f(d, e)], \"g, h ".toList
    let parts := ["a".toList, "'b\\',c'".toList, "f(d, e)]".toList, "\"g, h".toList]
    isStringMark ',' = false ∧ isOpening ',' = false ∧ '\n' ∉ s ∧
      cuts ',' .start s = [1, 11, 12, 22] ∧
      ((segments [1, 11, 12, 22] s).map strip).filter (· ≠ []) = parts ∧
      splitTopLevel (some ',') s = parts ∧
      splitTopLevel (some ',') (join [','] parts) = parts := by
  intro s parts
  have hmark : isStringMark ',' = false := by decide
  have hopen : isOpening ',' = false := by decide
  have hfeed : '\n' ∉ s := by decide
  have hcuts : cuts ',' .start s = [1, 11, 12, 22] := by decide +kernel
  have hsegments : ((segments [1, 11, 12, 22] s).map strip).filter (· ≠ []) = parts := by
    decide +kernel
  obtain ⟨hsplit, hrejoin⟩ := splitTopLevel_segments hmark hopen s
  rw [hcuts, hsegments] at hsplit
  rw [hsplit] at hrejoin
  exact ⟨hmark, hopen, hfeed, hcuts, hsegments, hsplit, hrejoin hfeed⟩

end ComponentCatalog.Code
