import ComponentCatalog.Proofs.Parts
import ComponentCatalog.Proofs.PropertySource

/-!
The first line of a doc comment. Marks are taken out wherever they stand, and so the line is what
was written into the comment exactly if it holds none.
-/
namespace ComponentCatalog.Code

open Text

/-- A line of a comment: it has text, no blanks around it and no mark at its head. -/
structure IsCommentLine (d : Text) : Prop where
  ne_nil : d ≠ []
  stripped : strip d = d
  unbroken : ∀ c ∈ d, isLineBreak c = false
  head : ∀ c, d.head? = some c → c ≠ '*' ∧ c ≠ '/'

/-- The inside of a doc comment that has the line `d` first: alone between blanks, or behind a star
on a line of its own, with further such lines below it. -/
inductive LaidOut (d : Text) : Text → Prop where
  | inline : LaidOut d (' ' :: (d ++ [' ']))
  | block (indent : Text) (more : List Text) : (∀ c ∈ indent, isBlank c = true) →
      LaidOut d ('\n' :: (indent ++ ('*' :: ' ' :: (d ++
        (more.flatMap (fun line => '\n' :: (indent ++ '*' :: line)) ++ '\n' :: indent)))))

/-- The text has a star or two slashes in a row. -/
def HasMark (s : Text) : Prop := '*' ∈ s ∨ "//".toList <:+: s

section Marks

variable {s u v : Text}

/-- What stands before a text that begins with no star or slash has the marks that both have. -/
theorem exists_eq_mark_append (hv : ∀ c, v.head? = some c → c ≠ '*' ∧ c ≠ '/') (mark : Text)
    (hmark : ∀ c ∈ mark, c = '*' ∨ c = '/') {rest : Text} (h : u ++ v = mark ++ rest) :
    ∃ more, u = mark ++ more := by
  rcases List.append_eq_append_iff.mp h with ⟨excess, hexcess, hrest⟩ | ⟨more, hmore, -⟩
  · cases excess with
    | nil => exact ⟨[], by rw [hexcess, List.append_nil, List.append_nil]⟩
    | cons c excess =>
      obtain ⟨hstar, hslash⟩ := hv c (by rw [hrest]; rfl)
      rcases hmark c (by simp [hexcess]) with rfl | rfl
      · exact absurd rfl hstar
      · exact absurd rfl hslash
  · exact ⟨more, hmore⟩

theorem withoutCommentMarks_star (h : ∀ more, s = '/' :: more → False) :
    withoutCommentMarks ('*' :: s) = withoutCommentMarks s := withoutCommentMarks.eq_4 s h

/-- A character that begins no mark is kept. -/
theorem withoutCommentMarks_keep {c : Char}
    (hopen : ∀ more, c = '/' → s = '*' :: '*' :: more → False)
    (hstar : c = '*' → False) (hline : ∀ more, c = '/' → s = '/' :: more → False) :
    withoutCommentMarks (c :: s) = c :: withoutCommentMarks s :=
  withoutCommentMarks.eq_6 c s hopen (fun _ hc _ => hstar hc) hstar hline

/-- What begins with no star or slash keeps its first character. -/
theorem withoutCommentMarks_cons {c : Char} (hstar : c ≠ '*') (hslash : c ≠ '/') (s : Text) :
    withoutCommentMarks (c :: s) = c :: withoutCommentMarks s :=
  withoutCommentMarks_keep (fun _ hc _ => hslash hc) hstar fun _ hc _ => hslash hc

/-- A text that begins with no star or slash completes no mark. -/
theorem withoutCommentMarks_append (u : Text) {v : Text}
    (hv : ∀ c, v.head? = some c → c ≠ '*' ∧ c ≠ '/') :
    withoutCommentMarks (u ++ v) = withoutCommentMarks u ++ withoutCommentMarks v := by
  induction u using withoutCommentMarks.induct with
  | case1 => rfl
  | case2 rest ih => exact ih
  | case3 rest ih => exact ih
  | case4 rest hslash ih =>
    have hslash' : ∀ after, rest ++ v = '/' :: after → False := by
      intro after heq
      obtain ⟨more, hmore⟩ := exists_eq_mark_append hv ['/'] (by decide) heq
      exact hslash more hmore
    rw [List.cons_append, withoutCommentMarks_star hslash', ih, withoutCommentMarks_star hslash]
  | case5 rest ih => exact ih
  | case6 c rest hopen hclose hstar hline ih =>
    have hopen' : ∀ after, c = '/' → rest ++ v = '*' :: '*' :: after → False := by
      intro after hc heq
      obtain ⟨more, hmore⟩ := exists_eq_mark_append hv ['*', '*'] (by decide) heq
      exact hopen more hc hmore
    have hline' : ∀ after, c = '/' → rest ++ v = '/' :: after → False := by
      intro after hc heq
      obtain ⟨more, hmore⟩ := exists_eq_mark_append hv ['/'] (by decide) heq
      exact hline more hc hmore
    rw [List.cons_append, withoutCommentMarks_keep hopen' hstar hline', ih,
      withoutCommentMarks_keep hopen hstar hline, List.cons_append]

theorem HasMark.cons {c : Char} {rest : Text} (h : HasMark (c :: rest)) (hc : c ≠ '*')
    (hline : ∀ more, c = '/' → rest = '/' :: more → False) : HasMark rest := by
  rcases h with hstar | hslash
  · exact .inl ((List.mem_cons.mp hstar).resolve_left (Ne.symm hc))
  · refine .inr ((List.infix_cons_iff.mp hslash).resolve_left ?_)
    rintro ⟨more, hmore⟩
    obtain ⟨hc, hrest⟩ := List.cons.inj hmore
    exact hline more hc.symm hrest.symm

theorem withoutCommentMarks_sublist (s : Text) : (withoutCommentMarks s).Sublist s := by
  induction s using withoutCommentMarks.induct with
  | case1 => exact .slnil
  | case2 rest ih => exact ((ih.cons '*').cons '*').cons '/'
  | case3 rest ih => exact (ih.cons '/').cons '*'
  | case4 rest hslash ih =>
    rw [withoutCommentMarks_star hslash]
    exact ih.cons '*'
  | case5 rest ih => exact (ih.cons '/').cons '/'
  | case6 c rest hopen hclose hstar hline ih =>
    rw [withoutCommentMarks_keep hopen hstar hline]
    exact ih.cons_cons c

/-- A text with a mark gets shorter. -/
theorem length_withoutCommentMarks_lt (h : HasMark s) :
    (withoutCommentMarks s).length < s.length := by
  have hle (rest : Text) := (withoutCommentMarks_sublist rest).length_le
  induction s using withoutCommentMarks.induct with
  | case1 => simp [HasMark] at h
  | case2 rest => exact Nat.lt_succ_of_le (Nat.le_succ_of_le (Nat.le_succ_of_le (hle rest)))
  | case3 rest => exact Nat.lt_succ_of_le (Nat.le_succ_of_le (hle rest))
  | case4 rest hslash =>
    rw [withoutCommentMarks_star hslash]
    exact Nat.lt_succ_of_le (hle rest)
  | case5 rest => exact Nat.lt_succ_of_le (Nat.le_succ_of_le (hle rest))
  | case6 c rest hopen hclose hstar hline ih =>
    rw [withoutCommentMarks_keep hopen hstar hline]
    exact Nat.succ_lt_succ (ih (h.cons hstar hline))

/-- A line is left as it is exactly if it has no mark. -/
theorem strip_withoutCommentMarks_eq_self_iff {d : Text} (hd : strip d = d) :
    strip (withoutCommentMarks d) = d ↔ ¬HasMark d := by
  refine ⟨fun h hmark => ?_, fun h => ?_⟩
  · have hle := (strip_isInfix (withoutCommentMarks d)).length_le
    rw [h] at hle
    exact absurd (length_withoutCommentMarks_lt hmark) (Nat.not_lt.mpr hle)
  · obtain ⟨hstar, hslash⟩ := not_or.mp h
    rw [Component.withoutCommentMarks_eq_self hstar hslash, hd]

theorem withoutCommentMarks_blank_append (h : ∀ c ∈ u, isBlank c = true) (s : Text) :
    withoutCommentMarks (u ++ s) = u ++ withoutCommentMarks s := by
  induction u with
  | nil => rfl
  | cons c u ih =>
    obtain ⟨hc, hu⟩ := List.forall_mem_cons.mp h
    have hmark {mark : Char} (hmark : isBlank mark = false) : c ≠ mark := by
      rintro rfl
      exact Bool.false_ne_true (hmark.symm.trans hc)
    rw [List.cons_append, withoutCommentMarks_cons (hmark rfl) (hmark rfl), ih hu, List.cons_append]

end Marks

/-- The first line of a text that is not blank, without blanks around it. -/
def firstNonblank (s : Text) : Option Text := ((breakLines s).map strip).find? (· ≠ [])

section Lines

variable {c : Char} {s line more : Text}

theorem firstCommentLine_eq (comment : Text) :
    firstCommentLine comment = firstNonblank (withoutCommentMarks comment) := rfl

theorem breakLines_cons_of_break (hc : isLineBreak c = true)
    (hpair : ∀ rest, c = '\r' → s = '\n' :: rest → False) :
    breakLines (c :: s) = [] :: breakLines s := by
  rw [breakLines.eq_3 c s hpair, if_pos hc]

theorem breakLines_cons_of_not_break (hc : isLineBreak c = false) :
    breakLines (c :: s) =
      (c :: (breakLines s).headD []) :: (breakLines s).tail := by
  have hreturn : c ≠ '\r' := by
    rintro rfl
    cases hc
  rw [breakLines.eq_3 c s fun _ hc' _ => hreturn hc', if_neg (by simp [hc])]
  cases breakLines s <;> rfl

theorem firstNonblank_cons_of_blank (hc : isBlank c = true) (s : Text) :
    firstNonblank (c :: s) = firstNonblank s := by
  unfold firstNonblank
  by_cases hbreak : isLineBreak c = true
  · by_cases hpair : ∃ rest, c = '\r' ∧ s = '\n' :: rest
    · -- A carriage return and its line feed end one line as the line feed alone does.
      obtain ⟨rest, rfl, rfl⟩ := hpair
      rw [breakLines, breakLines_cons_of_break rfl fun _ h => absurd h (by decide)]
    · rw [breakLines_cons_of_break hbreak fun rest hreturn hfeed => hpair ⟨rest, hreturn, hfeed⟩]
      rfl
  · have hstrip (line : Text) : strip (c :: line) = strip line :=
      strip_blank_append (List.forall_mem_singleton.mpr hc) line
    rw [breakLines_cons_of_not_break (Bool.eq_false_iff.mpr hbreak), List.map_cons, hstrip]
    cases breakLines s <;> rfl

theorem firstNonblank_append_of_blank {lead : Text} (h : ∀ c ∈ lead, isBlank c = true) (s : Text) :
    firstNonblank (lead ++ s) = firstNonblank s := by
  induction lead with
  | nil => rfl
  | cons c lead ih =>
    obtain ⟨hc, hlead⟩ := List.forall_mem_cons.mp h
    rw [List.cons_append, firstNonblank_cons_of_blank hc, ih hlead]

/-- A line ends where a break follows it, or with the text. -/
theorem headD_breakLines_append (hline : ∀ c ∈ line, isLineBreak c = false)
    (hmore : ∀ c, more.head? = some c → isLineBreak c = true) :
    (breakLines (line ++ more)).headD [] = line := by
  induction line with
  | nil =>
    cases more with
    | nil => rfl
    | cons c more =>
      rw [List.nil_append]
      by_cases hpair : ∃ rest, c = '\r' ∧ more = '\n' :: rest
      · obtain ⟨rest, rfl, rfl⟩ := hpair
        rfl
      · rw [breakLines_cons_of_break (hmore c rfl)
          fun rest hreturn hfeed => hpair ⟨rest, hreturn, hfeed⟩]
        rfl
  | cons c line ih =>
    obtain ⟨hc, hline⟩ := List.forall_mem_cons.mp hline
    rw [List.cons_append, breakLines_cons_of_not_break hc, List.headD_cons, ih hline]

theorem strip_ne_nil_of_mem (hs : c ∈ s) (hc : isBlank c = false) : strip s ≠ [] := by
  intro hnil
  obtain ⟨lead, trail, hlead, htrail, hsplit⟩ := exists_strip s
  rw [hnil, List.nil_append] at hsplit
  rw [hsplit] at hs
  rcases List.mem_append.mp hs with hs | hs
  · exact Bool.false_ne_true (hc.symm.trans (hlead c hs))
  · exact Bool.false_ne_true (hc.symm.trans (htrail c hs))

theorem firstNonblank_of_line (hne : strip line ≠ []) (hline : ∀ c ∈ line, isLineBreak c = false)
    (hmore : ∀ c, more.head? = some c → isLineBreak c = true) :
    firstNonblank (line ++ more) = some (strip line) := by
  have hhead := headD_breakLines_append hline hmore
  unfold firstNonblank
  cases hlines : breakLines (line ++ more) with
  | nil =>
    rw [hlines] at hhead
    exact absurd (congrArg strip hhead.symm) hne
  | cons first below =>
    rw [hlines, List.headD_cons] at hhead
    rw [List.map_cons, hhead, List.find?_cons_of_pos (by simpa using hne)]

end Lines

theorem IsCommentLine.exists_cons {d : Text} (h : IsCommentLine d) :
    ∃ c rest, d = c :: rest ∧ isBlank c = false ∧ c ≠ '*' ∧ c ≠ '/' := by
  obtain ⟨c, rest, rfl⟩ := List.exists_cons_of_ne_nil h.ne_nil
  exact ⟨c, rest, rfl, isBlank_head_of_strip_eq_self h.stripped, h.head c rfl⟩

/-- Behind blanks, a line of a comment is found up to the next line break. -/
theorem firstNonblank_of_commentLine {d lead trail more : Text} (hd : IsCommentLine d)
    (hlead : ∀ c ∈ lead, isBlank c = true) (htrail : ∀ c ∈ trail, c = ' ')
    (hmore : ∀ c, more.head? = some c → isLineBreak c = true) :
    firstNonblank (lead ++ (withoutCommentMarks d ++ (trail ++ more))) =
      some (strip (withoutCommentMarks d)) := by
  obtain ⟨c, rest, rfl, hc, hstar, hslash⟩ := hd.exists_cons
  have hblank : ∀ c ∈ trail, isBlank c = true := fun c hc => by
    rw [htrail c hc]
    rfl
  have hstrip : strip (withoutCommentMarks (c :: rest) ++ trail) =
      strip (withoutCommentMarks (c :: rest)) := strip_append_of_blank hblank _
  have hne : strip (withoutCommentMarks (c :: rest)) ≠ [] := by
    rw [withoutCommentMarks_cons hstar hslash]
    exact strip_ne_nil_of_mem List.mem_cons_self hc
  have hline : ∀ b ∈ withoutCommentMarks (c :: rest) ++ trail, isLineBreak b = false := by
    intro b hb
    rcases List.mem_append.mp hb with hb | hb
    · exact hd.unbroken b ((withoutCommentMarks_sublist _).subset hb)
    · rw [htrail b hb]
      rfl
  rw [firstNonblank_append_of_blank hlead, ← List.append_assoc,
    firstNonblank_of_line (by rwa [hstrip]) hline hmore, hstrip]

/-- The first line of a comment is the line that was laid out first, without its marks. -/
theorem firstCommentLine_of_laidOut {d inside : Text} (hd : IsCommentLine d)
    (h : LaidOut d inside) : firstCommentLine inside = some (strip (withoutCommentMarks d)) := by
  rw [firstCommentLine_eq]
  cases h with
  | inline =>
    have hclean : withoutCommentMarks (' ' :: (d ++ [' '])) =
        [' '] ++ (withoutCommentMarks d ++ ([' '] ++ [])) := by
      rw [withoutCommentMarks_cons (by decide) (by decide),
        withoutCommentMarks_append d fun c hc => by cases hc; decide]
      rfl
    rw [hclean]
    exact firstNonblank_of_commentLine hd (by simp [isBlank]) (by simp) (by simp)
  | block indent more hindent =>
    obtain ⟨below, hbelow⟩ : ∃ below, more.flatMap (fun line => '\n' :: (indent ++ '*' :: line)) ++
        '\n' :: indent = '\n' :: below := by
      cases more with
      | nil => exact ⟨indent, rfl⟩
      | cons line more => exact ⟨_, rfl⟩
    have hclean : withoutCommentMarks ('\n' :: (indent ++ ('*' :: ' ' :: (d ++ '\n' :: below)))) =
        ('\n' :: indent ++ [' ']) ++
          (withoutCommentMarks d ++ ([] ++ '\n' :: withoutCommentMarks below)) := by
      rw [withoutCommentMarks_cons (by decide) (by decide),
        withoutCommentMarks_blank_append hindent,
        withoutCommentMarks_star fun _ h => absurd h (by simp),
        withoutCommentMarks_cons (by decide) (by decide),
        withoutCommentMarks_append d fun c hc => by cases hc; decide,
        withoutCommentMarks_cons (by decide) (by decide)]
      simp only [List.cons_append, List.append_assoc, List.nil_append]
    have hlead : ∀ c ∈ '\n' :: indent ++ [' '], isBlank c = true := by
      rw [List.cons_append, List.forall_mem_cons, List.forall_mem_append]
      exact ⟨rfl, hindent, List.forall_mem_singleton.mpr rfl⟩
    rw [hbelow, hclean]
    exact firstNonblank_of_commentLine hd hlead (by simp) fun c hc => by cases hc; rfl

end ComponentCatalog.Code
