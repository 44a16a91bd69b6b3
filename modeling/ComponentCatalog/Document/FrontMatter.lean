import ComponentCatalog.Text.Scan
import ComponentCatalog.Code.Literal

/-!
Front matter: the `key: value` lines between two lines of dashes at the head of a document.
-/
namespace ComponentCatalog.Document

open Text

/-- The text without one quote at its head and one at its end. -/
def unquote (s : Text) : Text :=
  let s := if s.head?.any isQuote then s.tail else s
  if s.getLast?.any isQuote then s.dropLast else s

/-- The key and the value of a line with a colon that is not its first character. -/
def frontMatterEntry? (line : Text) : Option (Text × Text) := do
  let (key, value) ← cut? [':'] line
  guard (key ≠ [])
  return (strip key, unquote (strip value))

/-- The front matter of a document. -/
def frontMatter (s : Text) : Entries Text :=
  match (after? "---\n".toList s).bind (cut? "\n---".toList) with
  | none => []
  | some (body, _) => Entries.ofPairs ((lines body).filterMap frontMatterEntry?)

end ComponentCatalog.Document
