import ComponentCatalog.Document.Outline

/-!
What a document says about properties, usage and accessibility.
-/
namespace ComponentCatalog.Document

open Text

/-- The title of the section has one of the words, in any letter case. -/
def titleHas (words : List Text) (s : Section) : Bool :=
  words.any (contains · (lower s.title))

def isPropertySection (s : Section) : Bool :=
  titleHas ["props".toList, "api".toList] s || contains "<ArgTypes".toList s.content

def isUsageSection : Section → Bool :=
  titleHas ["usage".toList, "example".toList, "how to".toList]

def isPatternSection : Section → Bool :=
  titleHas ["usage".toList, "example".toList, "pattern".toList]

def isAccessibilitySection (s : Section) : Bool :=
  titleHas ["accessibility".toList, "a11y".toList] s ||
    ["screen reader".toList, "aria-".toList].any (contains · (lower s.content))

/-- The first line after a top heading that has text and begins neither a heading nor a tag. -/
def description? (s : Text) : Option Text :=
  let isTop (line : Text) : Bool := line.head? = some '#' && (line.tail.head?).any isBlank
  let isProse (line : Text) : Bool :=
    strip line ≠ [] && line.head? ≠ some '#' && line.head? ≠ some '<'
  (((lines s).dropWhile fun line => !isTop line).find? isProse).map strip

def factsOf (component s : Text) : DocumentFacts :=
  let document := ofText component s
  { component
    title := document.title
    description := description? s
    sections := document.sections.length
    examples := document.examples.length
    hasProperties := document.sections.any isPropertySection
    hasUsage := document.sections.any isUsageSection
    hasAccessibility := document.sections.any isAccessibilitySection }

def isSentenceEnd (c : Char) : Bool := c == '.' || c == '!' || c == '?'

/-- The sentences of a text without their marks. -/
def sentences (s : Text) : List Text :=
  ((s.splitOnP isSentenceEnd).map strip).filter (· ≠ [])

/-- The first three sentences of every section on usage, examples or patterns. -/
def usagePatterns (s : Text) : List Text :=
  ((sectionsIn s).filter isPatternSection).flatMap fun section_ =>
    (sentences section_.content).take 3

/-- The character is the small letter, its capital, or a letter that differs from it in case. -/
def matchesLetter (letter c : Char) : Bool :=
  c == letter || c == letter.toUpper ||
    (letter == 'k' && c == '\u212A') || (letter == 's' && c == '\u017F') ||
    (letter == 'i' && (c == '\u0130' || c == '\u0131'))

/-- What follows a beginning that equals `lead` in any letter case. -/
def afterIgnoringCase? : (lead : Text) → Text → Option Text
  | [], s => some s
  | _ :: _, [] => none
  | a :: lead, c :: rest => if matchesLetter a c then afterIgnoringCase? lead rest else none

/-- A word or attribute of accessible markup, in any letter case. -/
def accessibilityShape : Shape Text := fun at_ => do
  let aria := do
    let rest ← afterIgnoringCase? "aria-".toList at_.rest
    let (_, rest) ← run? (fun c => isWord c || c == '-') rest
    return rest
  let words := ["role=".toList, "screen reader".toList, "keyboard".toList, "focus".toList,
    "accessible".toList]
  let rest ← aria.or (words.findSome? (afterIgnoringCase? · at_.rest))
  return (upTo at_.rest rest, at_.lengthTo rest)

/-- The sentences of the sections on accessibility, and then all features the document names. -/
def accessibilityGuidelines (s : Text) : List Text :=
  let mentions := distinct (hits accessibilityShape s)
  ((sectionsIn s).filter isAccessibilitySection).flatMap (fun section_ =>
      sentences section_.content) ++
    if mentions = [] then []
    else ["Includes accessibility features: ".toList ++ join ", ".toList mentions]

def summaryOf (component s : Text) : DocumentSummary :=
  ⟨factsOf component s, usagePatterns s, accessibilityGuidelines s⟩

end ComponentCatalog.Document
