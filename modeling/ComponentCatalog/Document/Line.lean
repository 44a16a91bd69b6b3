import ComponentCatalog.Text.Scan
import ComponentCatalog.Node

/-!
The lines of a document. A line is a heading, a fence or prose; headings count inside fenced code
as well.
-/
namespace ComponentCatalog.Document

open Text

inductive LineKind where
  | heading (level : Nat) (title : Text)
  | fence
  | prose
  deriving DecidableEq, Repr

structure Line where
  index : Nat
  text : Text
  kind : LineKind
  deriving DecidableEq, Repr

/-- A heading line: one to six number signs, a blank, and at least one more character. -/
def heading? (line : Text) : Option (Nat × Text) :=
  let (marks, rest) := line.span (· == '#')
  if marks ≠ [] ∧ marks.length ≤ 6 ∧ rest.head?.any isBlank ∧ 2 ≤ rest.length then
    some (marks.length, strip rest)
  else none

def lineKind (line : Text) : LineKind :=
  match heading? line with
  | some (level, title) => .heading level title
  | none => if startsWith "```".toList (stripStart line) then .fence else .prose

/-- The lines of a text, in order. -/
def scanLines (s : Text) : List Line :=
  (lines s).mapIdx fun index line => ⟨index, line, lineKind line⟩

def Line.node (line : Line) : Node :=
  let (kind, level, title) : Text × Nat × Text := match line.kind with
    | .heading level title => ("heading".toList, level, title)
    | .fence => ("fence".toList, 0, [])
    | .prose => ("text".toList, 0, [])
  .recordOf "LineSpan" [("index", .int line.index), ("kind", .text kind), ("text", .text line.text),
    ("level", .int level), ("title", .text title)]

end ComponentCatalog.Document
