import ComponentCatalog.Document.FrontMatter
import ComponentCatalog.Proofs.Entries
import ComponentCatalog.Proofs.JoinedLines

/-!
Front matter that is printed with quoted values is read back, whatever the document goes on with:
the block ends at the first line that begins with dashes, which is the one behind it.
-/
namespace ComponentCatalog.Document

open Text

/-- A key that stands for itself at the beginning of a line of front matter. -/
structure IsKey (key : Text) : Prop where
  ne_nil : key ≠ []
  stripped : strip key = key
  colon : ':' ∉ key
  feed : '\n' ∉ key
  dashes : ¬"---".toList <+: key

/-- A line of front matter with its value in quotes. -/
def entryLine (entry : Text × Text) : Text :=
  entry.1 ++ (": \"".toList ++ (entry.2 ++ ['"']))

/-- A document with front matter, from the line of dashes before it to that behind it. -/
def frontMatterSource (entries : List (Text × Text)) (rest : Text) : Text :=
  "---\n".toList ++ (join ['\n'] (entries.map entryLine) ++ ("\n---".toList ++ rest))

section Lines

variable {entry : Text × Text} {entries : List (Text × Text)}

theorem notMem_entryLine (hkey : IsKey entry.1) (hvalue : '\n' ∉ entry.2) :
    '\n' ∉ entryLine entry := by
  unfold entryLine
  simp only [List.mem_append, not_or]
  exact ⟨hkey.feed, by decide, hvalue, by decide⟩

/-- Nor does a line begin with dashes whose key does not. -/
theorem not_dashes_prefix_entryLine (hkey : IsKey entry.1) :
    ¬"---".toList <+: entryLine entry := by
  have hcolon : entryLine entry = entry.1 ++ ':' :: ' ' :: '"' :: (entry.2 ++ ['"']) := rfl
  rw [hcolon]
  intro h
  exact hkey.dashes (prefix_of_notMem h (by decide))

/-- One quote is taken from either end, whatever the text between them is. -/
theorem unquote_quoted (s : Text) : unquote ('"' :: (s ++ ['"'])) = s := by
  have hhead : (some '"').any isQuote = true := rfl
  unfold unquote
  simp only [List.head?_cons, hhead, if_true, List.tail_cons, List.getLast?_concat,
    List.dropLast_concat]

theorem frontMatterEntry?_entryLine (hkey : IsKey entry.1) :
    frontMatterEntry? (entryLine entry) = some entry := by
  have hcut : cut? [':'] (entryLine entry) = some (entry.1, ' ' :: '"' :: (entry.2 ++ ['"'])) :=
    cut?_append hkey.colon
  have hstrip : strip (' ' :: '"' :: (entry.2 ++ ['"'])) = '"' :: (entry.2 ++ ['"']) := by
    have hblank : strip ([' '] ++ '"' :: (entry.2 ++ ['"'])) = strip ('"' :: (entry.2 ++ ['"'])) :=
      strip_blank_append (by decide) _
    exact hblank.trans (strip_cons_append rfl (by decide) (by decide) _)
  unfold frontMatterEntry?
  rw [hcut, Option.bind_eq_bind, Option.bind_some]
  simp only [hkey.ne_nil, ne_eq, not_false_eq_true, guard_true, hkey.stripped, hstrip,
    unquote_quoted]
  rfl

/-- The lines of the block are read to the entries. -/
theorem filterMap_entryLines (h : ∀ entry ∈ entries, IsKey entry.1 ∧ '\n' ∉ entry.2) :
    (lines (join ['\n'] (entries.map entryLine))).filterMap frontMatterEntry? = entries := by
  by_cases hnil : entries = []
  · subst hnil
    rfl
  · have hfeed : ∀ line ∈ entries.map entryLine, '\n' ∉ line := by
      intro line hline
      obtain ⟨entry, hentry, rfl⟩ := List.mem_map.mp hline
      obtain ⟨hkey, hvalue⟩ := h entry hentry
      exact notMem_entryLine hkey hvalue
    have hlines : lines (join ['\n'] (entries.map entryLine)) = entries.map entryLine :=
      List.splitOn_intercalate '\n' hfeed (by simpa using hnil)
    have hread : ∀ entry ∈ entries, ( frontMatterEntry? ∘ entryLine) entry = some entry :=
      fun entry hentry => frontMatterEntry?_entryLine (h entry hentry).1
    rw [hlines, List.filterMap_map, List.filterMap_congr hread, List.filterMap_some]

end Lines

/-- Printed front matter is read back, in front of any rest: each key where it occurs first, with
the last of its values. -/
theorem frontMatter_source {entries : List (Text × Text)}
    (h : ∀ entry ∈ entries, IsKey entry.1 ∧ '\n' ∉ entry.2) (rest : Text) :
    frontMatter (frontMatterSource entries rest) = Entries.overlaid entries := by
  have hlines : ∀ line ∈ entries.map entryLine, '\n' ∉ line ∧ ¬"---".toList <+: line := by
    intro line hline
    obtain ⟨entry, hentry, rfl⟩ := List.mem_map.mp hline
    obtain ⟨hkey, hvalue⟩ := h entry hentry
    exact ⟨notMem_entryLine hkey hvalue, not_dashes_prefix_entryLine hkey⟩
  have hblock : cut? "\n---".toList
      (join ['\n'] (entries.map entryLine) ++ ("\n---".toList ++ rest)) =
        some (join ['\n'] (entries.map entryLine), rest) :=
    cut?_lines (by decide : '\n' ∉ "---".toList) hlines rest
  unfold frontMatter frontMatterSource
  rw [after?_append, Option.bind_some, hblock]
  dsimp only
  rw [filterMap_entryLines h, Entries.ofPairs_eq_overlaid]

/-- Values with quotes, colons, dashes and blanks, and a key that comes twice. -/
def quotedFields : List (Text × Text) :=
  [("title".toList, "\"A\"".toList), ("url".toList, " b://c ".toList),
    ("title".toList, "--- 'D".toList)]

/-- The second title takes the place of the first. -/
theorem frontMatter_of_quotedFields :
    (∀ entry ∈ quotedFields, IsKey entry.1 ∧ '\n' ∉ entry.2) ∧
      frontMatter
          "---\ntitle: \"\"A\"\"\nurl: \" b://c \"\ntitle: \"--- 'D\"\n---\n---".toList =
        [("title".toList, "--- 'D".toList), ("url".toList, " b://c ".toList)] := by
  have hkeys : ∀ entry ∈ quotedFields, IsKey entry.1 ∧ '\n' ∉ entry.2 := by
    intro entry hentry
    have htitle : IsKey "title".toList :=
      ⟨by decide, by decide, by decide, by decide, by decide⟩
    have hurl : IsKey "url".toList := ⟨by decide, by decide, by decide, by decide, by decide⟩
    simp only [quotedFields, List.mem_cons, List.not_mem_nil, or_false] at hentry
    rcases hentry with rfl | rfl | rfl
    · exact ⟨htitle, by decide⟩
    · exact ⟨hurl, by decide⟩
    · exact ⟨htitle, by decide⟩
  exact ⟨hkeys, frontMatter_source hkeys "\n---".toList⟩

end ComponentCatalog.Document
