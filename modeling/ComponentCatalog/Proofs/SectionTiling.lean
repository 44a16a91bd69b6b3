import ComponentCatalog.Proofs.SectionSpans

/-!
The sections of a document tile its lines. Each heading opens one section, in order, which runs up
to the line before the next heading or to the last line: from the first heading on, every line is in
exactly one section.
-/
namespace ComponentCatalog.Document

open Text

/-- The heading lines of a text, in order. -/
def headings (s : Text) : List Line := (scanLines s).filter isHeading

/-- The section that a heading opens among the lines of a text; `stop` is the line behind it. -/
structure IsSectionOf (all : List Text) (heading : Line) (stop : Nat) (found : Section) : Prop where
  kind : ∃ level : Nat, heading.kind = .heading level found.title ∧ found.level = level
  startLine : found.startLine = heading.index
  endLine : found.endLine = stop - 1
  content : found.content = strip (join ['\n'] ((all.take stop).drop (heading.index + 1)))
  examples : found.examples = examplesIn found.content

/-- The line is one of those that the section spans. -/
def Spans (found : Section) (line : Nat) : Prop := found.startLine ≤ line ∧ line ≤ found.endLine

instance (found : Section) (line : Nat) : Decidable (Spans found line) :=
  inferInstanceAs (Decidable (_ ∧ _))

/-- How many lines stand before the first heading. -/
def lead (found : List Line) : Nat := (found.takeWhile fun line => !isHeading line).length

section Lead

variable {line : Line} {rest found : List Line} {first i : Nat}

theorem isHeading_iff :
    isHeading line = true ↔ ∃ level title, line.kind = .heading level title := by
  unfold isHeading
  split
  next level title hkind => simp [hkind]
  next hkind =>
    constructor
    · intro h
      cases h
    · rintro ⟨level, title, h⟩
      exact absurd h (hkind level title)

theorem lead_cons_of_heading (h : isHeading line = true) : lead (line :: rest) = 0 := by
  rw [lead, List.takeWhile_cons_of_neg (by simp [h]), List.length_nil]

theorem lead_cons (h : isHeading line = false) : lead (line :: rest) = lead rest + 1 := by
  rw [lead, List.takeWhile_cons_of_pos (by simp [h]), List.length_cons, lead]

theorem sectionsFrom_cons_of_heading {level : Nat} {title : Text}
    (h : line.kind = .heading level title) :
    sectionsFrom (line :: rest) =
      sectionOf title level line.index (rest.takeWhile fun l => !isHeading l) ::
        sectionsFrom rest := by
  rw [sectionsFrom, h]

theorem sectionsFrom_cons (h : isHeading line = false) :
    sectionsFrom (line :: rest) = sectionsFrom rest := by
  rw [sectionsFrom]
  split
  next level title hkind =>
    rw [isHeading_iff.mpr ⟨level, title, hkind⟩] at h
    cases h
  next => rfl

/-- The line of the first heading, or the end where there is none. -/
theorem Numbered.index_first_heading (h : Numbered first found) :
    (((found.filter isHeading)[0]?).map Line.index).getD (first + found.length) =
      first + lead found := by
  induction h with
  | nil => rfl
  | @cons first rest line _ ih =>
    cases hkind : isHeading ⟨first, line, lineKind line⟩ with
    | true =>
      rw [List.filter_cons_of_pos hkind, lead_cons_of_heading hkind]
      rfl
    | false =>
      have hlength : first + (rest.length + 1) = first + 1 + rest.length := by omega
      rw [List.filter_cons_of_neg (by simp [hkind]), lead_cons hkind, List.length_cons, hlength, ih]
      omega

/-- A heading stands at or before a line exactly if the line is not among those before the first. -/
theorem Numbered.exists_heading_iff (h : Numbered first found) (hi : i < first + found.length) :
    (∃ heading ∈ found.filter isHeading, heading.index ≤ i) ↔ first + lead found ≤ i := by
  induction h with
  | @nil first =>
    have hlead : ¬first + lead [] ≤ i := Nat.not_le.mpr hi
    simp [hlead]
  | @cons first rest line _ ih =>
    rw [List.length_cons] at hi
    have ih := ih (by omega)
    cases hkind : isHeading ⟨first, line, lineKind line⟩ with
    | true =>
      simp only [List.filter_cons_of_pos hkind, lead_cons_of_heading hkind, List.mem_cons,
        exists_eq_or_imp, ih]
      omega
    | false =>
      rw [List.filter_cons_of_neg (by simp [hkind]), lead_cons hkind, ih]
      omega

end Lead

theorem Numbered.map_index {first : Nat} {found : List Line} (h : Numbered first found) :
    found.map Line.index = List.range' first found.length := by
  induction h with
  | nil => rfl
  | cons line _ ih => rw [List.map_cons, ih, List.length_cons, List.range'_succ]

theorem map_text_scanLines (s : Text) : (scanLines s).map Line.text = lines s := by
  apply List.ext_getElem?
  intro i
  rw [List.getElem?_map, scanLines, List.getElem?_mapIdx, Option.map_map]
  exact congrFun Option.map_id _

section Sections

variable {first i k : Nat} {found : List Line} {all : List Text} {heading : Line}

theorem length_sectionsFrom (found : List Line) :
    (sectionsFrom found).length = (found.filter isHeading).length := by
  induction found with
  | nil => rfl
  | cons line rest ih =>
    cases hkind : isHeading line with
    | true =>
      obtain ⟨level, title, hheading⟩ := isHeading_iff.mp hkind
      rw [sectionsFrom_cons_of_heading hheading, List.filter_cons_of_pos hkind, List.length_cons,
        List.length_cons, ih]
    | false => rw [sectionsFrom_cons hkind, ih, List.filter_cons_of_neg (by simp [hkind])]

/-- The lines that a section takes up to the next heading are those of the text. -/
theorem take_drop_eq_map_takeWhile {rest : List Line}
    (hrest : all.drop first = rest.map Line.text) :
    (all.take (first + lead rest)).drop first =
      (rest.takeWhile fun line => !isHeading line).map Line.text := by
  have hbody : (rest.takeWhile fun line => !isHeading line) = rest.take (lead rest) :=
    List.prefix_iff_eq_take.mp (List.takeWhile_prefix _)
  rw [List.drop_take, hrest, Nat.add_sub_cancel_left, ← List.map_take, hbody]

theorem Numbered.getElem?_sectionsFrom (h : Numbered first found)
    (hall : all.drop first = found.map Line.text) (hlength : first + found.length = all.length)
    (hk : (found.filter isHeading)[k]? = some heading) :
    ∃ s, (sectionsFrom found)[k]? = some s ∧
      IsSectionOf all heading
        ((((found.filter isHeading)[k + 1]?).map Line.index).getD all.length) s := by
  -- On the numbered lines: a heading is the section at zero, and moves those behind it up by one.
  induction h generalizing k with
  | nil => cases hk
  | @cons first rest line hrest ih =>
    have hall' : all.drop (first + 1) = rest.map Line.text := by
      rw [← List.tail_drop, hall, List.map_cons, List.tail_cons]
    have hlength' : first + 1 + rest.length = all.length := by
      rw [← hlength, List.length_cons]
      omega
    cases hkind : isHeading ⟨first, line, lineKind line⟩ with
    | false =>
      rw [List.filter_cons_of_neg (by simp [hkind])] at hk ⊢
      rw [sectionsFrom_cons hkind]
      exact ih hall' hlength' hk
    | true =>
      obtain ⟨level, title, hheading⟩ := isHeading_iff.mp hkind
      rw [List.filter_cons_of_pos hkind] at hk ⊢
      rw [sectionsFrom_cons_of_heading hheading]
      cases k with
      | succ k => exact ih hall' hlength' hk
      | zero =>
        cases hk
        refine ⟨_, rfl, ?_⟩
        rw [List.getElem?_cons_succ, ← hlength', hrest.index_first_heading]
        constructor
        · exact ⟨level, hheading, rfl⟩
        · rfl
        · dsimp only [sectionOf]
          rw [← lead]
          omega
        · exact congrArg (fun body => strip (join ['\n'] body))
            (take_drop_eq_map_takeWhile hall').symm
        · rfl

/-- Of the lines from the first heading on, each is in one section; the lines before are in none. -/
theorem Numbered.countP_spans (h : Numbered first found) (hi : i < first + found.length) :
    (sectionsFrom found).countP (Spans · i) = if first + lead found ≤ i then 1 else 0 := by
  induction h with
  | @nil first =>
    have hlead : ¬first + lead [] ≤ i := Nat.not_le.mpr hi
    rw [if_neg hlead]
    rfl
  | @cons first rest line hrest ih =>
    rw [List.length_cons] at hi
    have ih := ih (by omega)
    cases hkind : isHeading ⟨first, line, lineKind line⟩ with
    | false =>
      rw [sectionsFrom_cons hkind, lead_cons hkind, ih]
      congr 1
      exact propext (by omega)
    | true =>
      obtain ⟨level, title, hheading⟩ := isHeading_iff.mp hkind
      have hspans : Spans (sectionOf title level first (rest.takeWhile fun l => !isHeading l)) i ↔
          first ≤ i ∧ i < first + 1 + lead rest := by
        rw [Spans, lead]
        dsimp only [sectionOf]
        omega
      -- Up to the next heading a line is in this section, and from there on in one of the rest.
      rw [sectionsFrom_cons_of_heading hheading, lead_cons_of_heading hkind, List.countP_cons, ih]
      simp only [decide_eq_true_eq, hspans]
      split <;> split <;> split <;> omega

end Sections

/-- The lines of a text are numbered in order and joined again to the text. Every heading opens one
section, in order, with its title and level, up to the line before the next heading or to the last
line; its content is what stands in between. So the sections follow on each other, and a line is in
exactly one of them if there is a heading at or before it, and else in none. -/
theorem sectionsIn_tile (s : Text) :
    (join ['\n'] ((scanLines s).map Line.text) = s ∧ (scanLines s).map Line.text = lines s ∧
      (scanLines s).map Line.index = List.range (lines s).length) ∧
    (sectionsIn s).length = (headings s).length ∧
    (∀ k heading, (headings s)[k]? = some heading →
      ∃ found, (sectionsIn s)[k]? = some found ∧
        IsSectionOf (lines s) heading
          ((((headings s)[k + 1]?).map Line.index).getD (lines s).length) found) ∧
    (∀ k found next, (sectionsIn s)[k]? = some found → (sectionsIn s)[k + 1]? = some next →
      next.startLine = found.endLine + 1) ∧
    ∀ i < (lines s).length,
      (sectionsIn s).countP (Spans · i) =
        if ∃ heading ∈ headings s, heading.index ≤ i then 1 else 0 := by
  have hnumbered := numbered_scanLines s
  have htext := map_text_scanLines s
  have hindex := hnumbered.map_index
  rw [length_scanLines, ← List.range_eq_range'] at hindex
  have hsections : ∀ k heading, (headings s)[k]? = some heading →
      ∃ found, (sectionsIn s)[k]? = some found ∧
        IsSectionOf (lines s) heading
          ((((headings s)[k + 1]?).map Line.index).getD (lines s).length) found := by
    intro k heading hk
    apply hnumbered.getElem?_sectionsFrom _ _ hk
    · rw [List.drop_zero, htext]
    · rw [Nat.zero_add, length_scanLines]
  have hlength : (sectionsIn s).length = (headings s).length := length_sectionsFrom _
  refine ⟨⟨?_, htext, hindex⟩, hlength, hsections, ?_, ?_⟩
  · rw [htext]
    exact List.intercalate_splitOn '\n'
  · intro k found next hfound hnext
    have hlt := (List.getElem?_eq_some_iff.mp hnext).1
    rw [hlength] at hlt
    obtain ⟨found', hfound', hend⟩ := hsections k _ (List.getElem?_eq_getElem (by omega))
    obtain ⟨next', hnext', hstart⟩ := hsections (k + 1) _ (List.getElem?_eq_getElem hlt)
    rw [hfound] at hfound'
    rw [hnext] at hnext'
    cases hfound'
    cases hnext'
    rw [hstart.startLine, hend.endLine, List.getElem?_eq_getElem hlt]
    exact (Int.sub_add_cancel _ 1).symm
  · intro i hi
    have hi : i < 0 + (scanLines s).length := by rwa [Nat.zero_add, length_scanLines]
    rw [sectionsIn, hnumbered.countP_spans hi]
    simp only [headings, hnumbered.exists_heading_iff hi]

end ComponentCatalog.Document
