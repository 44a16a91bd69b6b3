import ComponentCatalog.Document.Line
import ComponentCatalog.Document.Example
import ComponentCatalog.Document.FrontMatter

/-!
The outline of a document: its title, its sections, and what it imports and refers to.
-/
namespace ComponentCatalog.Document

open Text

/-- A number sign at the head of a line, blanks, and the rest of a line. -/
def titleShape : Shape Text := fun at_ => do
  guard (at_.previous = none ∨ at_.previous = some '\n')
  let (_, rest) ← one? isBlank (← after? ['#'] at_.rest)
  let (title, rest) ← afterMost isBlank (run? (· ≠ '\n')) rest
  return (strip title, at_.lengthTo rest)

/-- The title of the element that describes the page. -/
def metaTitleShape : Shape Text := fun at_ => do
  let rest ← blanks? (← after? "<Meta".toList at_.rest)
  let (title, rest) ← run? (· ≠ '"') (← after? "title=\"".toList rest)
  let rest ← after? ['"'] rest
  return (title, at_.lengthTo rest)

/-- The title of a document: of its first top heading, or else of its page description. -/
def title? (s : Text) : Option Text := (firstHit titleShape s).or (firstHit metaTitleShape s)

def isHeading (line : Line) : Bool :=
  match line.kind with
  | .heading _ _ => true
  | _ => false

/-- The section of a heading and the lines up to the next one. -/
def sectionOf (title : Text) (level index : Nat) (body : List Line) : Section :=
  let content := strip (join ['\n'] (body.map (·.text)))
  ⟨title, level, content, examplesIn content, index, index + body.length⟩

/-- Every heading opens a section; the lines before the first belong to none. -/
def sectionsFrom : List Line → List Section
  | [] => []
  | line :: rest =>
    match line.kind with
    | .heading level title =>
      sectionOf title level line.index (rest.takeWhile fun l => !isHeading l) :: sectionsFrom rest
    | _ => sectionsFrom rest

def sectionsIn (s : Text) : List Section := sectionsFrom (scanLines s)

/-- `import`, text on one line between blanks, and a quoted module. -/
def importShape : Shape Text := fun at_ => do
  let (_, rest) ← one? isBlank (← after? "import".toList at_.rest)
  let (module, rest) ← afterMost isBlank (afterLeast (· ≠ '\n') fun s => do
    let rest ← blanks? (← after? "from".toList (← blanks? s))
    let (_, rest) ← one? isQuote rest
    let (module, rest) ← run? (fun c => !isQuote c) rest
    let (_, rest) ← one? isQuote rest
    return (module, rest)) rest
  return (module, at_.lengthTo rest)

def importsIn (s : Text) : List Text := hits importShape s

/-- An opening tag whose name is an ASCII capital and at least one more word character. -/
def referenceShape : Shape Text := fun at_ => do
  let (name, rest) ← word? (← after? ['<'] at_.rest)
  guard (name.head?.any Char.isUpper ∧ 2 ≤ name.length)
  return (name, at_.lengthTo rest)

/-- The components that a document refers to, each once. -/
def referencesIn (s : Text) : List Text := distinct (hits referenceShape s)

/-- The parsed document of a component; without a title of its own it has the component's name. -/
def ofText (component s : Text) : Document where
  title := match title? s with
    | some (c :: title) => c :: title
    | _ => component
  content := s
  sections := sectionsIn s
  examples := examplesIn s
  metadata := frontMatter s
  imports := importsIn s
  components := referencesIn s

end ComponentCatalog.Document
