import ComponentCatalog.Document.Outline

/-!
The sections of a document as spans of its lines. The lines are numbered in order, a heading has one
to six marks, and the section that it opens ends before the next heading and within the document.
-/
namespace ComponentCatalog.Document

open Text

theorem heading?_level {line title : Text} {level : Nat} (h : heading? line = some (level, title)) :
    1 ≤ level ∧ level ≤ 6 := by
  unfold heading? at h
  dsimp only at h
  split at h
  next hmarks =>
    cases h
    exact ⟨List.length_pos_iff.mpr hmarks.1, hmarks.2.1⟩
  next => cases h

theorem heading?_of_lineKind {line title : Text} {level : Nat}
    (h : lineKind line = .heading level title) : heading? line = some (level, title) := by
  unfold lineKind at h
  split at h
  next level' title' hheading =>
    cases h
    exact hheading
  next => split at h <;> cases h

theorem lineKind_heading {line title : Text} {level : Nat}
    (h : lineKind line = .heading level title) : 1 ≤ level ∧ level ≤ 6 :=
  heading?_level (heading?_of_lineKind h)

/-- The lines are numbered from `first` on, each of the kind that its text has. -/
inductive Numbered : Nat → List Line → Prop where
  | nil {first : Nat} : Numbered first []
  | cons {first : Nat} {rest : List Line} (line : Text) : Numbered (first + 1) rest →
      Numbered first (⟨first, line, lineKind line⟩ :: rest)

theorem numbered_mapIdx (first : Nat) (texts : List Text) :
    Numbered first (texts.mapIdx fun i line => ⟨first + i, line, lineKind line⟩) := by
  induction texts generalizing first with
  | nil => exact .nil
  | cons line texts ih =>
    have hrest := ih (first + 1)
    rw [List.mapIdx_cons]
    simp only [Nat.add_assoc, Nat.add_comm 1] at hrest
    exact .cons line hrest

theorem numbered_scanLines (s : Text) : Numbered 0 (scanLines s) := by
  have h := numbered_mapIdx 0 (lines s)
  simp only [Nat.zero_add] at h
  exact h

theorem length_scanLines (s : Text) : (scanLines s).length = (lines s).length := List.length_mapIdx

/-- The section is a span of lines before the line `stop`, under a heading of one to six marks. -/
structure Within (stop : Nat) (s : Section) : Prop where
  one_le_level : 1 ≤ s.level
  level_le : s.level ≤ 6
  zero_le_startLine : 0 ≤ s.startLine
  startLine_le : s.startLine ≤ s.endLine
  endLine_lt : s.endLine < stop

theorem Numbered.within {first stop : Nat} {found : List Line} (h : Numbered first found)
    (hstop : first + found.length ≤ stop) : ∀ s ∈ sectionsFrom found, Within stop s := by
  induction h with
  | nil => exact List.forall_mem_nil _
  | @cons first rest line _ ih =>
    rw [List.length_cons] at hstop
    have hrest := ih (by omega)
    rw [sectionsFrom]
    split
    next level title hkind =>
      obtain ⟨hone, hsix⟩ := lineKind_heading hkind
      have hbody := (rest.takeWhile_sublist fun l => !isHeading l).length_le
      refine List.forall_mem_cons.mpr ⟨?_, hrest⟩
      constructor <;> dsimp only [sectionOf] <;> omega
    next => exact hrest

theorem within_sectionsIn (s : Text) : ∀ found ∈ sectionsIn s, Within (lines s).length found := by
  apply (numbered_scanLines s).within
  rw [length_scanLines]
  omega

end ComponentCatalog.Document
