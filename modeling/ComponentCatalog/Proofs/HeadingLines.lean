import ComponentCatalog.Proofs.JoinedLines
import ComponentCatalog.Proofs.Parts
import ComponentCatalog.Proofs.SectionTiling

/-!
The headings of a text that is put together from lines. Lines that are joined have their headings
one after the other; the blanks behind the whole matter only where they follow the marks of a
heading without a title.
-/
namespace ComponentCatalog.Document

open Text

/-- The levels and titles of the heading lines of a text, in order. -/
def headed (s : Text) : List (Nat × Text) := (lines s).filterMap heading?

def LineKind.ofHeading (found : Nat × Text) : LineKind := .heading found.1 found.2

theorem lineKind_of_heading? {line : Text} {found : Nat × Text} (h : heading? line = some found) :
    lineKind line = .ofHeading found := by
  rw [lineKind, h]
  rfl

theorem isHeading_eq {line : Line} (h : line.kind = lineKind line.text) :
    isHeading line = (heading? line.text).isSome := by
  rw [isHeading, h]
  cases hheading : heading? line.text with
  | some found => rw [lineKind_of_heading? hheading]; rfl
  | none =>
    rw [lineKind, hheading]
    by_cases hfence : startsWith "```".toList (stripStart line.text) = true
    · simp only [if_pos hfence, Option.isSome_none]
    · simp only [if_neg hfence, Option.isSome_none]

theorem Numbered.map_kind {first : Nat} {found : List Line} (h : Numbered first found) :
    (found.filter isHeading).map Line.kind =
      ((found.map Line.text).filterMap heading?).map LineKind.ofHeading := by
  induction h with
  | nil => rfl
  | @cons first rest line _ ih =>
    rw [List.map_cons]
    cases hline : heading? line with
    | some heading =>
      have hkind := lineKind_of_heading? hline
      rw [List.filter_cons_of_pos (by rw [isHeading_eq rfl, hline]; rfl),
        List.filterMap_cons_some hline, List.map_cons, List.map_cons, ih, hkind]
    | none =>
      rw [List.filter_cons_of_neg (by rw [isHeading_eq rfl, hline]; simp),
        List.filterMap_cons_none hline, ih]

/-- The heading spans of a text are its heading lines. -/
theorem map_kind_headings (s : Text) :
    (headings s).map Line.kind = (headed s).map LineKind.ofHeading := by
  rw [headings, (numbered_scanLines s).map_kind, map_text_scanLines, headed]

theorem lines_append_feed (u v : Text) : lines (u ++ '\n' :: v) = lines u ++ lines v :=
  List.splitOnP_append_cons u v (by decide)

theorem headed_append_feed (u v : Text) : headed (u ++ '\n' :: v) = headed u ++ headed v := by
  rw [headed, lines_append_feed, List.filterMap_append, headed, headed]

theorem headed_join {ls : List Text} (hne : ls ≠ []) :
    headed (join ['\n'] ls) = ls.flatMap headed := by
  induction ls with
  | nil => exact absurd rfl hne
  | cons line ls ih =>
    rw [join_cons, List.flatMap_cons]
    split
    next hls => rw [hls, List.append_nil, List.flatMap_nil, List.append_nil]
    next hls => rw [headed_append_feed, ih hls]

theorem headed_of_oneLine {line : Text} (h : '\n' ∉ line) :
    headed line = (heading? line).toList := by
  have hlines : lines line = [line] := List.splitOn_eq_singleton h
  rw [headed, hlines]
  cases hline : heading? line with
  | some found => rw [List.filterMap_cons_some hline]; rfl
  | none => rw [List.filterMap_cons_none hline]; rfl

theorem headed_of_mem_lines {s line : Text} (hs : headed s = []) (h : line ∈ lines s) :
    heading? line = none :=
  List.filterMap_eq_nil_iff.mp hs line h

/-- A line whose marks are followed by something else. -/
theorem heading?_replicate {behind : Text} (n : Nat) (h : behind.head?.any (· == '#') = false) :
    heading? (List.replicate n '#' ++ behind) =
      if n ≠ 0 ∧ n ≤ 6 ∧ behind.head?.any isBlank ∧ 2 ≤ behind.length then some (n, strip behind)
      else none := by
  have hmarks : ∀ c ∈ List.replicate n '#', (c == '#') = true := fun c hc => by
    rw [List.eq_of_mem_replicate hc]
    rfl
  rw [heading?, span_append hmarks h]
  simp only [List.length_replicate, ne_eq, List.replicate_eq_nil_iff]

theorem exists_replicate (line : Text) :
    ∃ n behind, line = List.replicate n '#' ++ behind ∧ behind.head?.any (· == '#') = false := by
  induction line with
  | nil => exact ⟨0, [], rfl, rfl⟩
  | cons c line ih =>
    by_cases hc : c = '#'
    · obtain ⟨n, behind, rfl, hbehind⟩ := ih
      exact ⟨n + 1, behind, by rw [hc, List.replicate_succ, List.cons_append], hbehind⟩
    · exact ⟨0, c :: line, rfl, by simpa using hc⟩

theorem heading?_eq_none {c : Char} (h : c ≠ '#') (rest : Text) : heading? (c :: rest) = none := by
  have hhead : (c :: rest).head?.any (· == '#') = false := by simpa using h
  exact heading?_replicate 0 hhead

theorem headed_eq_nil_of_blank {s : Text} (h : ∀ c ∈ s, isBlank c = true) : headed s = [] := by
  refine List.filterMap_eq_nil_iff.mpr fun line hline => ?_
  have hsubset : line ⊆ s := join_lines s ▸ subset_join hline
  cases line with
  | nil => rfl
  | cons c rest =>
    apply heading?_eq_none
    rintro rfl
    exact absurd (h _ (hsubset List.mem_cons_self)) (by decide)

theorem stripEnd_of_blank {u v : Text} (h : ∀ c ∈ v, isBlank c = true) :
    stripEnd (u ++ '\n' :: v) = stripEnd u :=
  dropEndWhile_append_of_pos (List.forall_mem_cons.mpr ⟨by decide, h⟩) u

theorem forall_isBlank_of_stripEnd {v : Text} (h : stripEnd v = []) :
    ∀ c ∈ v, isBlank c = true := by
  obtain ⟨trail, htrail, hsplit⟩ := exists_dropEndWhile isBlank v
  rw [← stripEnd, h, List.nil_append] at hsplit
  rwa [hsplit]

theorem stripEnd_append_feed {v : Text} (h : stripEnd v ≠ []) (u : Text) :
    stripEnd (u ++ '\n' :: v) = u ++ '\n' :: stripEnd v := by
  have happend := dropEndWhile_append h (u ++ ['\n'])
  rwa [List.append_assoc, List.append_assoc] at happend

/-- What is stripped behind a line and further lines: blanks of the further lines, and only where
these are nothing else blanks of the line itself. -/
theorem headed_stripEnd_append (u v : Text) :
    headed (stripEnd (u ++ '\n' :: v)) =
      if stripEnd v = [] then headed (stripEnd u) else headed u ++ headed (stripEnd v) := by
  split
  next h => rw [stripEnd_of_blank (forall_isBlank_of_stripEnd h)]
  next h => rw [stripEnd_append_feed h, headed_append_feed]

/-- Lines have these headings, with the blanks behind each of them and without. -/
structure Heads (ls : List Text) (found : List (Nat × Text)) : Prop where
  flatMap_headed : ls.flatMap headed = found
  stripped : ∀ l ∈ ls, headed (stripEnd l) = headed l

namespace Heads

variable {ls ls' : List Text} {found found' : List (Nat × Text)}

theorem append (h : Heads ls found) (h' : Heads ls' found') :
    Heads (ls ++ ls') (found ++ found') where
  flatMap_headed := by rw [List.flatMap_append, h.flatMap_headed, h'.flatMap_headed]
  stripped := List.forall_mem_append.mpr ⟨h.stripped, h'.stripped⟩

theorem flatMap {α : Type} {items : List α} {f : α → List Text} {g : α → List (Nat × Text)}
    (h : ∀ a ∈ items, Heads (f a) (g a)) : Heads (items.flatMap f) (items.flatMap g) := by
  induction items with
  | nil => exact ⟨rfl, List.forall_mem_nil _⟩
  | cons a items ih =>
    obtain ⟨ha, hitems⟩ := List.forall_mem_cons.mp h
    exact ha.append (ih hitems)

/-- The headings of the lines where they are joined and the blanks behind the whole are stripped. -/
theorem headed_stripEnd_join (hne : ls ≠ []) (h : Heads ls found) :
    headed (stripEnd (join ['\n'] ls)) = found := by
  rw [← h.flatMap_headed]
  have hlines := h.stripped
  clear h
  induction ls with
  | nil => exact absurd rfl hne
  | cons line ls ih =>
    obtain ⟨hline, hls⟩ := List.forall_mem_cons.mp hlines
    rw [join_cons, List.flatMap_cons]
    split
    next hnil => rw [hnil, List.append_nil, List.flatMap_nil, List.append_nil, hline]
    next hcons =>
      rw [headed_stripEnd_append, ih hcons hls]
      split
      next hblank =>
        -- Stripping reaches into this line; what it takes away below has no headings.
        have hnone := headed_eq_nil_of_blank (forall_isBlank_of_stripEnd hblank)
        rw [headed_join hcons] at hnone
        rw [hline, hnone, List.append_nil]
      next => rfl

end Heads

/-- A heading stays one with anything behind it. -/
theorem isSome_heading?_append {line : Text} (h : (heading? line).isSome) (w : Text) :
    (heading? (line ++ w)).isSome := by
  obtain ⟨n, behind, rfl, hbehind⟩ := exists_replicate line
  rw [heading?_replicate n hbehind] at h
  split at h
  next hheading =>
    obtain ⟨hn, hsix, hblank, hlength⟩ := hheading
    cases behind with
    | nil => cases hblank
    | cons c behind =>
      have hlonger : 2 ≤ (c :: behind ++ w).length := by
        rw [List.length_append]
        omega
      have hhead : (c :: behind ++ w).head?.any (· == '#') = false := hbehind
      rw [List.append_assoc, heading?_replicate n hhead, if_pos ⟨hn, hsix, hblank, hlonger⟩]
      rfl
  next => cases h

theorem heading?_stripEnd {line : Text} (h : heading? line = none) :
    heading? (stripEnd line) = none := by
  obtain ⟨trail, -, hsplit⟩ := exists_dropEndWhile isBlank line
  rw [Option.eq_none_iff_forall_ne_some]
  intro found hfound
  have hsome := isSome_heading?_append (hfound ▸ rfl : (heading? (stripEnd line)).isSome) trail
  rw [stripEnd, ← hsplit, h] at hsome
  cases hsome

theorem headed_stripEnd_of_oneLine {line : Text} (hfeed : '\n' ∉ line) (h : headed line = []) :
    headed (stripEnd line) = [] := by
  have hstripped : '\n' ∉ stripEnd line := fun hmem =>
    hfeed ((dropEndWhile_isPrefix _ _).subset hmem)
  rw [headed_of_oneLine hfeed, Option.toList_eq_nil_iff] at h
  rw [headed_of_oneLine hstripped, heading?_stripEnd h]
  rfl

/-- Lines of which none is a heading. -/
theorem Heads.of_unheaded {ls : List Text} (h : ∀ line ∈ ls, '\n' ∉ line ∧ headed line = []) :
    Heads ls [] where
  flatMap_headed := List.flatMap_eq_nil_iff.mpr fun line hline => (h line hline).2
  stripped line hline := by
    obtain ⟨hfeed, hnone⟩ := h line hline
    rw [headed_stripEnd_of_oneLine hfeed hnone, hnone]

theorem headed_stripEnd_eq_nil {s : Text} (h : headed s = []) : headed (stripEnd s) = [] := by
  have hlines : Heads (lines s) [] := by
    refine .of_unheaded fun line hline => ?_
    have hfeed := feed_notMem_of_mem_lines hline
    rw [headed_of_oneLine hfeed, headed_of_mem_lines h hline]
    exact ⟨hfeed, rfl⟩
  have hne : lines s ≠ [] := List.splitOn_ne_nil _ _
  have hstripped := hlines.headed_stripEnd_join hne
  rwa [join_lines] at hstripped

/-- Of a text without headings that is stripped only the first line, without its indentation, can
become a heading. -/
theorem tail_lines_strip {s : Text} (h : headed s = []) :
    (lines (strip s)).tail.filterMap heading? = [] := by
  obtain ⟨indentation, -, hsplit⟩ := stripStart_split s
  rw [strip]
  -- Only the line that loses its indentation changes; the first line feed behind that ends it.
  by_cases hfeed : '\n' ∈ stripStart s
  · obtain ⟨first, below, hbelow, hfirst⟩ := List.eq_append_cons_of_mem hfeed
    have hnone : headed below = [] := by
      rw [hsplit, hbelow, ← List.append_assoc, headed_append_feed] at h
      exact (List.append_eq_nil_iff.mp h).2
    have hone : lines first = [first] := List.splitOn_eq_singleton hfirst
    rw [hbelow]
    by_cases hblank : stripEnd below = []
    · have hstripped : '\n' ∉ stripEnd first := fun hmem =>
        hfirst ((dropEndWhile_isPrefix _ _).subset hmem)
      have hlines : lines (stripEnd first) = [stripEnd first] := List.splitOn_eq_singleton hstripped
      rw [stripEnd_of_blank (forall_isBlank_of_stripEnd hblank), hlines]
      rfl
    · rw [stripEnd_append_feed hblank, lines_append_feed, hone]
      exact headed_stripEnd_eq_nil hnone
  · have hstripped : '\n' ∉ stripEnd (stripStart s) := fun hmem =>
      hfeed ((dropEndWhile_isPrefix _ _).subset hmem)
    have hlines : lines (stripEnd (stripStart s)) = [stripEnd (stripStart s)] :=
      List.splitOn_eq_singleton hstripped
    rw [hlines]
    rfl

theorem Numbered.kind_eq {first : Nat} {found : List Line} (h : Numbered first found) :
    ∀ line ∈ found, line.kind = lineKind line.text := by
  induction h with
  | nil => exact List.forall_mem_nil _
  | cons line _ ih => exact List.forall_mem_cons.mpr ⟨rfl, ih⟩

theorem Numbered.index_eq_first {first : Nat} {found : List Line} (h : Numbered first found)
    (htail : (found.map Line.text).tail.filterMap heading? = []) :
    ∀ line ∈ found.filter isHeading, line.index = first := by
  intro line hline
  obtain ⟨hmem, hheading⟩ := List.mem_filter.mp hline
  cases h with
  | nil => cases hmem
  | cons head hrest =>
    rcases List.mem_cons.mp hmem with rfl | hmem
    · rfl
    · have hnone := List.filterMap_eq_nil_iff.mp htail line.text (List.mem_map_of_mem hmem)
      rw [isHeading_eq (hrest.kind_eq line hmem), hnone] at hheading
      cases hheading

end ComponentCatalog.Document
