import ComponentCatalog.Proofs.HeadingLines

/-!
The title of a document against the headings among its lines. The blanks behind a mark reach over
line feeds, so a mark without text on its line takes its title from a line below; where the first
mark of a top heading has text, the title is that of the first top heading.
-/
namespace ComponentCatalog

namespace Text

variable {c : Char} {ls : List Text}

def hasText (s : Text) : Bool := s.any fun c => !isBlank c

theorem hasText_eq_false {s : Text} : hasText s = false ↔ ∀ c ∈ s, isBlank c = true := by
  simp [hasText]

/-- Blanks, text up to the end of its line, and the rest. -/
structure FirstText (gap x rest : Text) : Prop where
  blank : ∀ c ∈ gap, isBlank c = true
  ne_nil : x ≠ []
  head : ∀ c, x.head? = some c → isBlank c = false
  feed : '\n' ∉ x
  ends : rest.head?.all (· == '\n') = true

theorem firstText_stripStart {line rest : Text} (htext : hasText line = true) (hfeed : '\n' ∉ line)
    (hrest : rest.head?.all (· == '\n') = true) :
    ∃ gap, line = gap ++ stripStart line ∧ FirstText gap (stripStart line) rest := by
  obtain ⟨gap, hgap, hsplit⟩ := stripStart_split line
  refine ⟨gap, hsplit, hgap, ?_, ?_, ?_, hrest⟩
  · intro hnil
    rw [hnil, List.append_nil] at hsplit
    rw [hsplit, hasText_eq_false.mpr hgap] at htext
    cases htext
  · intro c hc
    have hnot := List.head?_dropWhile_not isBlank line
    rw [← stripStart, hc] at hnot
    simpa using hnot
  · exact fun hmem => hfeed ((stripStart_suffix line).subset hmem)

/-- The first line that has text stands behind blanks. -/
theorem exists_firstText {line : Text} (h : ∀ line ∈ ls, '\n' ∉ line)
    (hfind : ls.find? hasText = some line) :
    ∃ gap x rest, join ['\n'] ls = gap ++ (x ++ rest) ∧ FirstText gap x rest ∧
      strip x = strip line := by
  induction ls with
  | nil => cases hfind
  | cons first ls ih =>
    rw [join_cons]
    obtain ⟨hfirst, hls⟩ := List.forall_mem_cons.mp h
    by_cases htext : hasText first = true
    · rw [List.find?_cons_of_pos htext] at hfind
      obtain rfl := Option.some.inj hfind
      have hrest : (if ls = [] then [] else '\n' :: join ['\n'] ls).head?.all (· == '\n') =
          true := by split <;> rfl
      obtain ⟨gap, hsplit, hgap⟩ := firstText_stripStart htext hfirst hrest
      refine ⟨gap, stripStart first, _, ?_, hgap, ?_⟩
      · rw [← List.append_assoc, ← hsplit]
      · rw [← strip_blank_append hgap.blank, ← hsplit]
    · rw [List.find?_cons_of_neg htext] at hfind
      have hne : ls ≠ [] := by
        rintro rfl
        cases hfind
      have hblank := hasText_eq_false.mp (Bool.eq_false_iff.mpr htext)
      -- A line without text becomes part of the gap.
      obtain ⟨gap, x, rest, hjoin, hgap, hstrip⟩ := ih hls hfind
      refine ⟨first ++ '\n' :: gap, x, rest, ?_, { hgap with blank := ?_ }, hstrip⟩
      · rw [if_neg hne, hjoin]
        simp
      · intro c hc
        rcases List.mem_append.mp hc with hc | hc
        · exact hblank c hc
        · rcases List.mem_cons.mp hc with rfl | hc
          · rfl
          · exact hgap.blank c hc

end Text

namespace Document

open Text

/-- One mark and no other stands at the head of the line: a blank follows it, or the end. -/
def opensTitle (line : Text) : Bool := line.head? = some '#' && line.tail.head?.all isBlank

/-- What stands behind the first such mark, and the lines below it. -/
def opening? : List Text → Option (Text × List Text)
  | [] => none
  | line :: below => if opensTitle line then some (line.tail, below) else opening? below

/-- The title that is read behind a mark: the first text on its line or below it; without any, the
empty text between blanks if there are two on the line or a line with one below it. -/
def titleBehind (behind : Text) (below : List Text) : Option Text :=
  match (behind :: below).find? hasText with
  | some line => some (strip line)
  | none => if 2 ≤ behind.length ∨ ∃ line ∈ below, line ≠ [] then some [] else none

/-- The title of a line that is a top heading. -/
def Line.topTitle? (line : Line) : Option Text :=
  match line.kind with
  | .heading 1 title => some title
  | _ => none

/-- The title of the first top heading among the lines. -/
def topHeading? (s : Text) : Option Text := (scanLines s).findSome? Line.topTitle?

section Behind

variable {behind : Text} {below : List Text}

/-- What is read behind the mark of a heading. -/
def titleAt (s : Text) : Option Text := do
  let (_, rest) ← one? isBlank s
  let (title, _) ← afterMost isBlank (run? (· ≠ '\n')) rest
  return strip title

theorem titleAt_of_text {gap x rest : Text} (hne : gap ≠ []) (h : FirstText gap x rest) :
    titleAt (gap ++ (x ++ rest)) = some (strip x) := by
  obtain ⟨b, gap, rfl⟩ := List.exists_cons_of_ne_nil hne
  obtain ⟨hb, hgap⟩ := List.forall_mem_cons.mp h.blank
  have hone : one? isBlank (b :: gap ++ (x ++ rest)) = some (b, gap ++ (x ++ rest)) :=
    one?_eq_some.mpr ⟨rfl, hb⟩
  have hrun : run? (· ≠ '\n') (x ++ rest) = some (x, rest) := by
    refine run?_append h.ne_nil (fun c hc => ?_) ?_
    · exact decide_eq_true (ne_of_mem_of_not_mem hc h.feed)
    · cases rest with
      | nil => rfl
      | cons c rest => simpa using h.ends
  have hmost : afterMost isBlank (run? (· ≠ '\n')) (gap ++ (x ++ rest)) = some (x, rest) := by
    refine afterMost_append hgap ?_
    rw [afterMost_of_neg, hrun]
    intro c hc
    rw [List.head?_append, Option.or_of_isSome (by simpa using h.ne_nil)] at hc
    exact h.head c hc
  simp only [titleAt, hone, hmost, Option.bind_eq_bind, Option.bind_some]
  rfl

/-- Among blanks one that is no line feed is left to the title. -/
theorem titleAt_of_blanks {b : Char} {s : Text} (hb : isBlank b = true)
    (hs : ∀ c ∈ s, isBlank c = true) (hleft : ∃ c ∈ s, c ≠ '\n') : titleAt (b :: s) = some [] := by
  have hone : one? isBlank (b :: s) = some (b, s) := one?_eq_some.mpr ⟨rfl, hb⟩
  obtain ⟨c, hc, hfeed⟩ := hleft
  obtain ⟨u, v, rfl⟩ := List.append_of_mem hc
  have hu : ∀ d ∈ u, isBlank d = true := fun d hd => hs d (List.mem_append_left _ hd)
  have hrun : (run? (· ≠ '\n') (c :: v)).isSome = true := by
    rw [run?, List.span_eq_takeWhile_dropWhile, List.takeWhile_cons_of_pos (by simpa using hfeed)]
    rfl
  obtain ⟨⟨title, rest⟩, hmost⟩ := Option.isSome_iff_exists.mp (isSome_afterMost hu hrun)
  obtain ⟨gap, tail, -, hsplit, hfound⟩ := exists_of_afterMost hmost
  have hpart : title <:+: u ++ c :: v := by
    rw [hsplit]
    exact (run?_isInfix hfound).trans (List.suffix_append _ _).isInfix
  have htitle : strip title = [] :=
    strip_append_of_blank (fun d hd => hs d (hpart.subset hd)) []
  simp only [titleAt, hone, hmost, Option.bind_eq_bind, Option.bind_some, htitle]
  rfl

theorem titleAt_of_feeds {b : Char} {s : Text} (hb : isBlank b = true)
    (hs : ¬∃ c ∈ s, c ≠ '\n') : titleAt (b :: s) = none := by
  have hone : one? isBlank (b :: s) = some (b, s) := one?_eq_some.mpr ⟨rfl, hb⟩
  have hmost : afterMost isBlank (run? (· ≠ '\n')) s = none := by
    rw [Option.eq_none_iff_forall_ne_some]
    rintro ⟨title, rest⟩ hmost
    obtain ⟨gap, tail, -, rfl, hfound⟩ := exists_of_afterMost hmost
    obtain ⟨hne, -⟩ := run?_ends hfound
    obtain ⟨rfl, hkept⟩ := run?_eq_some hfound
    obtain ⟨c, title, rfl⟩ := List.exists_cons_of_ne_nil hne
    exact hs ⟨c, by simp, of_decide_eq_true (hkept c List.mem_cons_self)⟩
  simp only [titleAt, hone, hmost, Option.bind_eq_bind, Option.bind_some, Option.bind_none]

/-- Behind the mark of a line the title is looked for on the line and below it. -/
theorem titleAt_join (hfeed : ∀ line ∈ behind :: below, '\n' ∉ line)
    (hhead : behind.head?.all isBlank = true) :
    titleAt (join ['\n'] (behind :: below)) = titleBehind behind below := by
  unfold titleBehind
  cases hfind : (behind :: below).find? hasText with
  | some line =>
    obtain ⟨gap, x, rest, hjoin, hx, hstrip⟩ := exists_firstText hfeed hfind
    have hne : gap ≠ [] := by
      rintro rfl
      obtain ⟨c, x, rfl⟩ := List.exists_cons_of_ne_nil hx.ne_nil
      have hblank := head?_join_blank below hhead
      rw [hjoin] at hblank
      have hc : isBlank c = true := by simpa using hblank
      rw [hx.head c rfl] at hc
      cases hc
    rw [hjoin, titleAt_of_text hne hx, hstrip]
  | none =>
    have hblank : ∀ line ∈ behind :: below, ∀ c ∈ line, isBlank c = true := by
      intro line hline
      have hno := List.find?_eq_none.mp hfind line hline
      exact hasText_eq_false.mp (Bool.eq_false_iff.mpr hno)
    have hall : ∀ c ∈ join ['\n'] (behind :: below), isBlank c = true := by
      intro c hc
      rcases mem_join hc with rfl | ⟨line, hline, hc⟩
      · rfl
      · exact hblank line hline c hc
    have hleft := exists_mem_tail_join_iff hfeed
    cases hjoin : join ['\n'] (behind :: below) with
    | nil =>
      rw [hjoin] at hleft
      have hempty : ¬(2 ≤ behind.length ∨ ∃ line ∈ below, line ≠ []) := by simp [← hleft]
      rw [if_neg hempty]
      rfl
    | cons b s =>
      rw [hjoin, List.tail_cons] at hleft
      rw [hjoin] at hall
      obtain ⟨hb, hs⟩ := List.forall_mem_cons.mp hall
      by_cases hmore : ∃ c ∈ s, c ≠ '\n'
      · rw [titleAt_of_blanks hb hs hmore, if_pos (hleft.mp hmore)]
      · rw [titleAt_of_feeds hb hmore, if_neg (mt hleft.mpr hmore)]

theorem titleBehind_of_hasText (h : hasText behind = true) (below : List Text) :
    titleBehind behind below = some (strip behind) := by
  rw [titleBehind, List.find?_cons_of_pos h]

theorem titleBehind_of_blank (h : hasText behind = false) (below : List Text) :
    titleBehind behind below =
      match below.find? hasText with
      | some line => some (strip line)
      | none => if 2 ≤ behind.length ∨ ∃ line ∈ below, line ≠ [] then some [] else none := by
  rw [titleBehind, List.find?_cons_of_neg (Bool.eq_false_iff.mp h)]

/-- Without a title behind a mark there is nothing below it. -/
theorem eq_nil_of_titleBehind_eq_none (h : titleBehind behind below = none) :
    ∀ line ∈ below, line = [] := by
  unfold titleBehind at h
  split at h
  next => cases h
  next =>
    split at h
    next => cases h
    next hnot =>
      intro line hline
      by_contra hne
      exact hnot (.inr ⟨line, hline, hne⟩)

end Behind

section Search

variable {previous : Option Char} {ls : List Text}

/-- No mark is recognised within a line. -/
theorem titleShape_within {c : Char} (hc : c ≠ '\n') (offset : Nat) (s : Text) :
    titleShape ⟨offset, some c, s⟩ = none := by
  have hguard : ¬(some c = none ∨ some c = some '\n') := by simpa using hc
  simp only [titleShape, guard, if_neg hguard]
  rfl

theorem titleShape_mark (hprevious : previous = none ∨ previous = some '\n') (offset : Nat)
    (s : Text) : (titleShape ⟨offset, previous, '#' :: s⟩).map Prod.fst = titleAt s := by
  have hmark : after? ['#'] ('#' :: s) = some s := rfl
  simp only [titleShape, titleAt, guard, if_pos hprevious, hmark, Option.pure_def,
    Option.bind_eq_bind, Option.bind_some]
  cases one? isBlank s with
  | none => rfl
  | some found =>
    dsimp only [Option.bind_some]
    cases afterMost isBlank (run? (· ≠ '\n')) found.2 <;> rfl

theorem titleShape_of_not_opensTitle {line rest : Text} (hne : line ≠ [])
    (h : opensTitle line = false) (offset : Nat) :
    titleShape ⟨offset, previous, line ++ rest⟩ = none := by
  obtain ⟨c, line, rfl⟩ := List.exists_cons_of_ne_nil hne
  unfold titleShape
  by_cases hc : c = '#'
  · subst hc
    have hmark : after? ['#'] ('#' :: line ++ rest) = some (line ++ rest) := rfl
    have hone : one? isBlank (line ++ rest) = none := by
      cases line with
      | nil => cases h
      | cons d line =>
        have hd : isBlank d = false := by simpa [opensTitle] using h
        rw [List.cons_append, one?, hd]
        rfl
    simp only [hmark, hone, Option.bind_eq_bind, Option.bind_some, Option.bind_none,
      Option.bind_fun_none]
  · have hmark : after? ['#'] (c :: line ++ rest) = none := by
      rw [List.cons_append, after?, if_neg (Ne.symm hc)]
    simp only [hmark, Option.bind_eq_bind, Option.bind_none, Option.bind_fun_none]

/-- The rest of a line is passed, with the line feed behind it. -/
theorem firstHitFrom_titleShape_pass {u : Text} (hu : '\n' ∉ u) {c : Char} (hc : c ≠ '\n')
    (offset : Nat) (ls : List Text) :
    firstHitFrom titleShape offset (some c)
        (u ++ if ls = [] then [] else '\n' :: join ['\n'] ls) =
      if ls = [] then none
      else firstHitFrom titleShape (offset + u.length + 1) (some '\n') (join ['\n'] ls) := by
  induction u generalizing c offset with
  | nil =>
    split
    · rfl
    · rw [List.nil_append, firstHitFrom, titleShape_within hc]
      rfl
  | cons d u ih =>
    obtain ⟨hd, hu⟩ := not_or.mp (mt List.mem_cons.mpr hu)
    rw [List.cons_append, firstHitFrom, titleShape_within hc]
    dsimp only
    rw [ih hu (Ne.symm hd), List.length_cons]
    congr 2
    omega

/-- The title that is read in lines: behind the first mark of a top heading. -/
def titleIn (ls : List Text) : Option Text :=
  (opening? ls).bind fun (behind, below) => titleBehind behind below

theorem opening?_eq_none_of_empty (h : ∀ line ∈ ls, line = []) : opening? ls = none := by
  induction ls with
  | nil => rfl
  | cons line ls ih =>
    obtain ⟨rfl, hls⟩ := List.forall_mem_cons.mp h
    exact ih hls

theorem exists_mark_of_opensTitle {line : Text} (h : opensTitle line = true) :
    ∃ behind, line = '#' :: behind ∧ behind.head?.all isBlank = true := by
  unfold opensTitle at h
  rw [Bool.and_eq_true, decide_eq_true_iff, List.head?_eq_some_iff] at h
  obtain ⟨⟨behind, rfl⟩, hhead⟩ := h
  exact ⟨behind, rfl, hhead⟩

/-- From the beginning of a line on, the search reads the title of the lines. -/
theorem firstHitFrom_titleShape (hfeed : ∀ line ∈ ls, '\n' ∉ line)
    (hprevious : previous = none ∨ previous = some '\n') (offset : Nat) :
    firstHitFrom titleShape offset previous (join ['\n'] ls) = titleIn ls := by
  induction ls generalizing previous offset with
  | nil => rfl
  | cons line below ih =>
    obtain ⟨hline, hbelow⟩ := List.forall_mem_cons.mp hfeed
    -- The search goes on behind the line feed as it began, if there are more lines.
    have hmore (o : Nat) : (if below = [] then none
        else firstHitFrom titleShape o (some '\n') (join ['\n'] below)) = titleIn below := by
      split
      next hnil =>
        subst hnil
        rfl
      next => exact ih hbelow (.inr rfl) o
    by_cases hopen : opensTitle line = true
    · obtain ⟨behind, rfl, hhead⟩ := exists_mark_of_opensTitle hopen
      have hfeed' : ∀ l ∈ behind :: below, '\n' ∉ l :=
        List.forall_mem_cons.mpr ⟨fun h => hline (.tail _ h), hbelow⟩
      have hin : titleIn (('#' :: behind) :: below) = titleBehind behind below := by
        rw [titleIn, opening?, if_pos hopen]
        rfl
      have hshape := titleShape_mark hprevious offset (join ['\n'] (behind :: below))
      rw [titleAt_join hfeed' hhead, join_cons] at hshape
      rw [hin, join_cons, List.cons_append, firstHitFrom]
      cases htitle : titleBehind behind below with
      | some title =>
        rw [htitle, Option.map_eq_some_iff] at hshape
        obtain ⟨⟨title', length⟩, hfound, rfl⟩ := hshape
        rw [hfound]
      | none =>
        rw [htitle, Option.map_eq_none_iff] at hshape
        rw [hshape]
        dsimp only
        have hempty := eq_nil_of_titleBehind_eq_none htitle
        rw [firstHitFrom_titleShape_pass (fun h => hline (.tail _ h)) (by decide), hmore, titleIn,
          opening?_eq_none_of_empty hempty]
        rfl
    · have hopen := Bool.eq_false_iff.mpr hopen
      have hin : titleIn (line :: below) = titleIn below := by
        rw [titleIn, opening?, if_neg (Bool.eq_false_iff.mp hopen)]
        rfl
      rw [hin, join_cons]
      cases line with
      | nil =>
        rw [← hmore (offset + 1), List.nil_append]
        split
        next => rfl
        next =>
          have hshape : titleShape ⟨offset, previous, ['\n'] ++ join ['\n'] below⟩ = none :=
            titleShape_of_not_opensTitle (List.cons_ne_nil _ _) rfl offset
          rw [List.singleton_append] at hshape
          rw [firstHitFrom, hshape]
      | cons c u =>
        obtain ⟨hc, hu⟩ := not_or.mp (mt List.mem_cons.mpr hline)
        rw [List.cons_append, firstHitFrom, ← List.cons_append,
          titleShape_of_not_opensTitle (List.cons_ne_nil _ _) hopen]
        dsimp only
        rw [firstHitFrom_titleShape_pass hu (Ne.symm hc), hmore]

end Search

/-- The title of a document is read behind the first mark of a top heading, or else in the page
description. -/
theorem title?_eq (s : Text) :
    title? s = (titleIn (lines s)).or (firstHit metaTitleShape s) := by
  have hfeed : ∀ line ∈ lines s, '\n' ∉ line := fun _ => feed_notMem_of_mem_lines
  have hsearch : firstHitFrom titleShape 0 none (join ['\n'] (lines s)) = titleIn (lines s) :=
    firstHitFrom_titleShape hfeed (.inl rfl) 0
  rw [join_lines] at hsearch
  rw [title?, firstHit, hsearch]

section Headings

variable {behind : Text} {below ls : List Text}

theorem heading?_mark (hhead : behind.head?.all isBlank = true) :
    heading? ('#' :: behind) = if 2 ≤ behind.length then some (1, strip behind) else none := by
  have hnot : behind.head?.any (· == '#') = false := by
    cases behind with
    | nil => rfl
    | cons c behind =>
      by_contra hmark
      obtain rfl : c = '#' := by simpa using hmark
      cases hhead
  have hone := heading?_replicate 1 hnot
  by_cases hlength : 2 ≤ behind.length
  · have hblank : behind.head?.any isBlank = true := by
      cases behind with
      | nil => cases hlength
      | cons c behind => exact hhead
    rw [if_pos ⟨by decide, by decide, hblank, hlength⟩] at hone
    rw [if_pos hlength]
    exact hone
  · rw [if_neg fun h => hlength h.2.2.2] at hone
    rw [if_neg hlength]
    exact hone

theorem opensTitle_of_heading? {line title : Text} (h : heading? line = some (1, title)) :
    opensTitle line = true := by
  obtain ⟨n, behind, rfl, hbehind⟩ := exists_replicate line
  rw [heading?_replicate n hbehind] at h
  split at h
  next hheading =>
    cases h
    obtain ⟨-, -, hblank, -⟩ := hheading
    cases behind with
    | nil => rfl
    | cons c behind => exact hblank
  next => cases h

theorem topTitle?_eq_some {index : Nat} {line title : Text} :
    Line.topTitle? ⟨index, line, lineKind line⟩ = some title ↔ heading? line = some (1, title) := by
  unfold Line.topTitle? lineKind
  cases heading? line with
  | none =>
    dsimp only
    generalize startsWith "```".toList (stripStart line) = fence
    cases fence <;> simp
  | some found =>
    obtain ⟨level, title'⟩ := found
    by_cases hlevel : level = 1
    · simp [hlevel]
    · simp [hlevel]

/-- A top heading is a mark with two characters behind it. -/
theorem topTitle?_line (index : Nat) (line : Text) :
    Line.topTitle? ⟨index, line, lineKind line⟩ =
      if opensTitle line = true ∧ 2 ≤ line.tail.length then some (strip line.tail) else none := by
  apply Option.ext
  intro title
  rw [topTitle?_eq_some]
  by_cases hopen : opensTitle line = true
  · obtain ⟨behind, rfl, hhead⟩ := exists_mark_of_opensTitle hopen
    rw [heading?_mark hhead, List.tail_cons]
    by_cases hlength : 2 ≤ behind.length
    · rw [if_pos hlength, if_pos ⟨hopen, hlength⟩]
      simp
    · rw [if_neg hlength, if_neg (mt And.right hlength)]
      simp
  · rw [if_neg (mt And.left hopen)]
    exact iff_of_false (fun h => hopen (opensTitle_of_heading? h)) (Option.some_ne_none _).symm

/-- The first top heading is the first mark with two characters behind it. -/
def topTitleIn : List Text → Option Text
  | [] => none
  | line :: below =>
    if opensTitle line = true ∧ 2 ≤ line.tail.length then some (strip line.tail)
    else topTitleIn below

theorem Numbered.findSome?_topTitle? {first : Nat} {found : List Line} (h : Numbered first found) :
    found.findSome? Line.topTitle? = topTitleIn (found.map Line.text) := by
  induction h with
  | nil => rfl
  | @cons first rest line _ ih =>
    rw [List.findSome?_cons, topTitle?_line, ih, List.map_cons, topTitleIn]
    by_cases hline : opensTitle line = true ∧ 2 ≤ line.tail.length
    · rw [if_pos hline, if_pos hline]
    · rw [if_neg hline, if_neg hline]

theorem topHeading?_eq (s : Text) : topHeading? s = topTitleIn (lines s) := by
  rw [topHeading?, (numbered_scanLines s).findSome?_topTitle?, map_text_scanLines]

theorem head?_of_opening? (h : opening? ls = some (behind, below)) :
    behind.head?.all isBlank = true := by
  induction ls with
  | nil => cases h
  | cons line ls ih =>
    rw [opening?] at h
    split at h
    next hopen =>
      cases h
      exact (Bool.and_eq_true_iff.mp hopen).2
    next => exact ih h

theorem topTitleIn_eq (ls : List Text) : topTitleIn ls =
    (opening? ls).bind fun (behind, below) =>
      if 2 ≤ behind.length then some (strip behind) else topTitleIn below := by
  induction ls with
  | nil => rfl
  | cons line ls ih =>
    rw [topTitleIn, opening?]
    by_cases hopen : opensTitle line = true
    · simp only [hopen, true_and, if_true, Option.bind_some]
    · rw [if_neg (mt And.left hopen), if_neg hopen, ih]

theorem topTitleIn_of_blank (h : ∀ line ∈ ls, hasText line = false) : topTitleIn ls = none := by
  induction ls with
  | nil => rfl
  | cons line ls ih =>
    obtain ⟨hline, hls⟩ := List.forall_mem_cons.mp h
    have hclosed : ¬(opensTitle line = true ∧ 2 ≤ line.tail.length) := by
      rintro ⟨hopen, -⟩
      obtain ⟨behind, rfl, -⟩ := exists_mark_of_opensTitle hopen
      cases hline
    rw [topTitleIn, if_neg hclosed, ih hls]

/-- The page description has a title of at least one character. -/
theorem firstHit_metaTitleShape_ne_nil (s : Text) : firstHit metaTitleShape s ≠ some [] := by
  intro h
  rw [firstHit, firstHitFrom_eq_head?] at h
  have hmem : [] ∈ hits metaTitleShape s := List.mem_of_head? h
  refine forall_mem_hits (P := fun title => title ≠ []) ?_ [] hmem rfl
  intro at_ title length _ hshape
  simp only [metaTitleShape, Option.bind_eq_bind, Option.bind_eq_some_iff, Prod.exists] at hshape
  obtain ⟨_, -, _, -, _, -, title', rest, hrun, _, -, heq⟩ := hshape
  cases heq
  exact (run?_ends hrun).1

theorem two_le_length_of_hasText (hhead : behind.head?.all isBlank = true)
    (htext : hasText behind = true) : 2 ≤ behind.length := by
  cases behind with
  | nil => cases htext
  | cons b behind =>
    have hb : isBlank b = true := hhead
    cases behind with
    | nil => simp [hasText, hb] at htext
    | cons c behind => simp

/-- What is read behind a mark is the title of the first top heading, if there is text on its line;
or else if the text below it happens to be that title, or if there is none below it and either two
characters stand behind the mark or every line below is empty. -/
theorem titleBehind_or_eq_iff {described : Option Text} (hdescribed : described ≠ some [])
    (hhead : behind.head?.all isBlank = true) :
    (titleBehind behind below).or described =
        (if 2 ≤ behind.length then some (strip behind) else topTitleIn below).or described ↔
      (hasText behind = false →
        match below.find? hasText with
        | some line =>
          (if 2 ≤ behind.length then some (strip behind) else topTitleIn below).or described =
            some (strip line)
        | none => 2 ≤ behind.length ∨ ∀ line ∈ below, line = []) := by
  cases htext : hasText behind with
  | true =>
    rw [titleBehind_of_hasText htext, if_pos (two_le_length_of_hasText hhead htext)]
    simp
  | false =>
    rw [titleBehind_of_blank htext]
    simp only [forall_const]
    cases hbelow : below.find? hasText with
    | some line =>
      dsimp only
      rw [Option.some_or, eq_comm]
    | none =>
      have hstrip : strip behind = [] := strip_append_of_blank (hasText_eq_false.mp htext) []
      have hnone : topTitleIn below = none := by
        refine topTitleIn_of_blank fun line hline => ?_
        exact Bool.eq_false_iff.mpr (List.find?_eq_none.mp hbelow line hline)
      rw [hstrip, hnone]
      dsimp only
      by_cases hlength : 2 ≤ behind.length
      · simp [hlength]
      · by_cases hempty : ∀ line ∈ below, line = []
        · have hno : ¬∃ line ∈ below, line ≠ [] := fun ⟨line, hline, hne⟩ => hne (hempty line hline)
          rw [if_neg (not_or.mpr ⟨hlength, hno⟩), if_neg hlength]
          exact iff_of_true rfl (.inr hempty)
        · have hsome : ∃ line ∈ below, line ≠ [] := by
            by_contra hno
            exact hempty fun line hline => by_contra fun hne => hno ⟨line, hline, hne⟩
          rw [if_pos (.inr hsome), if_neg hlength, Option.some_or, Option.none_or]
          exact iff_of_false (Ne.symm hdescribed) (not_or.mpr ⟨hlength, hempty⟩)

/-- A line is never the title that it has as a top heading. -/
theorem topTitle?_ne_strip (index : Nat) (line : Text) :
    Line.topTitle? ⟨index, line, lineKind line⟩ ≠ some (strip line) := by
  rw [topTitle?_line]
  split
  next hline =>
    obtain ⟨behind, rfl, -⟩ := exists_mark_of_opensTitle hline.1
    rw [List.tail_cons, Ne, Option.some.injEq]
    exact (strip_cons_ne rfl behind).symm
  next => exact (Option.some_ne_none _).symm

end Headings

/-- The title of a document is that of its first top heading, or else of its page description,
exactly if the first mark of a top heading has text on its line, or there is none; or else if the
text below it happens to be that title, or if there is no text below it and either two characters
stand behind it or every line below is empty. Without text on the line of the mark the first line
below that has text is taken, which is no top heading with that title. -/
theorem title_against_headings (s : Text) :
    title? s = (titleIn (lines s)).or (firstHit metaTitleShape s) ∧
    (title? s = (topHeading? s).or (firstHit metaTitleShape s) ↔
      ∀ behind below, opening? (lines s) = some (behind, below) → hasText behind = false →
        match below.find? hasText with
        | some line => (topHeading? s).or (firstHit metaTitleShape s) = some (strip line)
        | none => 2 ≤ behind.length ∨ ∀ line ∈ below, line = []) ∧
    ∀ behind below line, opening? (lines s) = some (behind, below) → hasText behind = false →
      below.find? hasText = some line →
        title? s = some (strip line) ∧
          ∀ index, Line.topTitle? ⟨index, line, lineKind line⟩ ≠ some (strip line) := by
  refine ⟨title?_eq s, ?_, ?_⟩
  · rw [title?_eq, topHeading?_eq, titleIn, topTitleIn_eq]
    cases hopening : opening? (lines s) with
    | none => simp
    | some found =>
      obtain ⟨behind, below⟩ := found
      have hiff := @titleBehind_or_eq_iff behind below _ (firstHit_metaTitleShape_ne_nil s)
        (head?_of_opening? hopening)
      constructor
      · intro h b l hfound
        cases hfound
        exact hiff.mp h
      · exact fun h => hiff.mpr (h behind below rfl)
  · intro behind below line hopening htext hline
    have htitle : titleBehind behind below = some (strip line) := by
      rw [titleBehind_of_blank htext, hline]
    refine ⟨?_, fun index => topTitle?_ne_strip index line⟩
    rw [title?_eq, titleIn, hopening, Option.bind_some]
    dsimp only
    rw [htitle, Option.some_or]

/-- A mark without text, prose, and then a top heading. -/
def bareMark : Text := "#\n\nIntro text.\n# Button\nBody".toList

/-- The prose is taken for the title. -/
theorem title_of_bareMark :
    title? bareMark = some "Intro text.".toList ∧ topHeading? bareMark = some "Button".toList ∧
      lineKind "Intro text.".toList = .prose ∧
      title? bareMark ≠ (topHeading? bareMark).or (firstHit metaTitleShape bareMark) := by
  obtain ⟨-, -, hbelow⟩ := title_against_headings bareMark
  obtain ⟨htitle, -⟩ := hbelow [] (["", "Intro text.", "# Button", "Body"].map String.toList)
    "Intro text.".toList (by decide +kernel) rfl rfl
  have htop : topHeading? bareMark = some "Button".toList := by decide +kernel
  refine ⟨htitle, htop, by decide +kernel, ?_⟩
  rw [htitle, htop]
  decide

end Document

end ComponentCatalog
