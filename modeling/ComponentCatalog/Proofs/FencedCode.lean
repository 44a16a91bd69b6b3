import ComponentCatalog.Document.Example
import ComponentCatalog.Proofs.JoinedLines

/-!
Fenced code in a document. An opening and a closing fence look alike; a scan that begins outside a
block meets them in turn, because neither prose nor code holds a backtick.
-/
namespace ComponentCatalog.Document

open Text

/-- A block of fenced code with the prose that follows it. -/
structure FencedBlock where
  language : Text
  code : Text
  prose : Text
  language_word : ∀ c ∈ language, isWord c = true
  code_unfenced : '\x60' ∉ code
  prose_unfenced : '\x60' ∉ prose

namespace FencedBlock

/-- The block from its opening to its closing fence. -/
def fenced (b : FencedBlock) : Text :=
  fenceMark ++ b.language ++ '\n' :: b.code ++ '\n' :: fenceMark

def source (b : FencedBlock) : Text := b.fenced ++ b.prose

end FencedBlock

/-- Code without a backtick goes on to the first fence that begins a line. -/
theorem cut?_fence {code : Text} (h : '\x60' ∉ code) (rest : Text) :
    cut? ('\n' :: fenceMark) (code ++ '\n' :: (fenceMark ++ rest)) = some (code, rest) := by
  have hlines : ∀ line ∈ lines code, '\n' ∉ line ∧ ¬fenceMark <+: line := by
    intro line hline
    have hsubset : line ⊆ code := join_lines code ▸ subset_join hline
    refine ⟨feed_notMem_of_mem_lines hline, fun hfence => h (hsubset ?_)⟩
    exact hfence.subset (by decide)
  have hcut := cut?_lines (by decide) hlines rest
  rwa [join_lines] at hcut

/-- Where no backtick stands, no fenced code begins. -/
theorem fenceShape_of_ne {c : Char} (h : c ≠ '\x60') (offset : Nat) (previous : Option Char)
    (rest : Text) : fenceShape ⟨offset, previous, c :: rest⟩ = none := by
  have hafter : after? fenceMark (c :: rest) = none := if_neg (Ne.symm h)
  rw [fenceShape, hafter]
  rfl

theorem fenceShape_fenced (b : FencedBlock) (offset : Nat) (previous : Option Char) (rest : Text) :
    fenceShape ⟨offset, previous, b.fenced ++ rest⟩ =
      some ((b.language, b.code), b.fenced.length) := by
  let body := b.code ++ '\n' :: (fenceMark ++ rest)
  have hsplit : b.fenced ++ rest = fenceMark ++ (b.language ++ '\n' :: body) := by
    simp [body, FencedBlock.fenced]
  have hspan : (b.language ++ '\n' :: body).span isWord = (b.language, '\n' :: body) :=
    span_append b.language_word (by rfl)
  have hfeed : after? ['\n'] ('\n' :: body) = some body := after?_append ['\n'] body
  have hcode : cut? ('\n' :: fenceMark) body = some (b.code, rest) :=
    cut?_fence b.code_unfenced rest
  have hafter : after? fenceMark (b.fenced ++ rest) = some (b.language ++ '\n' :: body) := by
    rw [hsplit, after?_append]
  have hlength : Cursor.lengthTo ⟨offset, previous, b.fenced ++ rest⟩ rest = b.fenced.length := by
    simp [Cursor.lengthTo]
  simp only [fenceShape, hafter, hspan, hfeed, hcode, hlength, Option.bind_eq_bind,
    Option.bind_some, Option.pure_def]

theorem hitsFrom_prose {prose : Text} (h : '\x60' ∉ prose) (offset : Nat) (previous : Option Char)
    (rest : Text) :
    hitsFrom fenceShape 0 offset previous (prose ++ rest) =
      hitsFrom fenceShape 0 (offset + prose.length) (lastOf previous prose) rest := by
  apply hitsFrom_pass
  intro v c w hsplit o p
  apply fenceShape_of_ne
  rintro rfl
  exact h (by simp [hsplit])

/-- A scan that begins outside a block recognises each block and is outside again after it. -/
theorem hitsFrom_blocks (blocks : List FencedBlock) {lead : Text} (hlead : '\x60' ∉ lead)
    (offset : Nat) (previous : Option Char) :
    hitsFrom fenceShape 0 offset previous (lead ++ blocks.flatMap FencedBlock.source) =
      blocks.map fun b => (b.language, b.code) := by
  induction blocks generalizing lead offset previous with
  | nil =>
    rw [List.flatMap_nil, hitsFrom_prose hlead]
    rfl
  | cons b blocks ih =>
    -- The prose is passed; the block takes its closing fence with it, so that the scan is outside
    -- again where the prose behind it begins.
    have hne : b.fenced ≠ [] := by simp [FencedBlock.fenced]
    have hhit := hitsFrom_hit hne
      (fenceShape_fenced b (offset + lead.length) (lastOf previous lead)
        (b.prose ++ blocks.flatMap FencedBlock.source))
    rw [hitsFrom_prose hlead, List.flatMap_cons, FencedBlock.source, List.append_assoc, hhit,
      ih b.prose_unfenced]
    rfl

/-- Of the three kinds of examples only fenced code is called code. -/
theorem codeExamples_eq (s : Text) :
    (examplesIn s).filter (·.kind = "code".toList) =
      (hits fenceShape s).map fun (language, code) => codeExample language code := by
  have hframes : ((hits frameShape s).map frameExample).filter (·.kind = "code".toList) = [] := by
    rw [List.filter_eq_nil_iff, List.forall_mem_map]
    intro code _
    simp [frameExample]
  have hfences : ((hits fenceShape s).map fun (language, code) => codeExample language code).filter
      (·.kind = "code".toList) =
        (hits fenceShape s).map fun (language, code) => codeExample language code := by
    rw [List.filter_eq_self, List.forall_mem_map]
    intro found _
    simp [codeExample]
  have helements (found : List (Text × Text)) :
      (found.map fun (tag, element) => elementExample tag element).filter
        (·.kind = "code".toList) = [] := by
    rw [List.filter_eq_nil_iff, List.forall_mem_map]
    intro entry _
    simp [elementExample]
  rw [examplesIn, List.filter_append, List.filter_append, hframes, hfences, helements,
    List.nil_append, List.append_nil]

/-- Of the examples in a document those that are fenced code are its blocks in order, each with its
code as it stands and with its language, or as text where it names none. -/
theorem codeExamples_of_blocks {lead : Text} (hlead : '\x60' ∉ lead) (blocks : List FencedBlock) :
    (examplesIn (lead ++ blocks.flatMap FencedBlock.source)).filter (·.kind = "code".toList) =
      blocks.map fun b =>
        let language := if b.language = [] then "text".toList else b.language
        { code := b.code
          kind := "code".toList
          language := some language
          title := none
          description := some (language ++ " code example".toList) } := by
  rw [codeExamples_eq, hits, hitsFrom_blocks blocks hlead, List.map_map]
  rfl

/-- Two blocks with prose between them, and a third right behind the second. -/
theorem codeExamples_of_adjacent_blocks :
    let lead := "Text\n".toList
    let first : FencedBlock :=
      ⟨"tsx".toList, "<A b />\n# c\n".toList, "\nMore\n".toList, by decide, by decide, by decide⟩
    let second : FencedBlock := ⟨[], [], [], by decide, by decide, by decide⟩
    let third : FencedBlock := ⟨"js".toList, "1".toList, [], by decide, by decide, by decide⟩
    lead ++ [first, second, third].flatMap FencedBlock.source =
        "Text\n```tsx\n<A b />\n# c\n\n```\nMore\n```\n\n``````js\n1\n```".toList ∧
      '\x60' ∉ lead ∧
      (examplesIn (lead ++ [first, second, third].flatMap FencedBlock.source)).filter
          (·.kind = "code".toList) =
        [⟨"<A b />\n# c\n".toList, "code".toList, some "tsx".toList, none,
            some "tsx code example".toList⟩,
          ⟨[], "code".toList, some "text".toList, none, some "text code example".toList⟩,
          ⟨"1".toList, "code".toList, some "js".toList, none, some "js code example".toList⟩] := by
  intro lead first second third
  have hlead : '\x60' ∉ lead := by decide
  exact ⟨rfl, hlead, codeExamples_of_blocks hlead [first, second, third]⟩

end ComponentCatalog.Document
