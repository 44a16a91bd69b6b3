import ComponentCatalog.Story.Settings
import ComponentCatalog.Code.Comment

/-!
The stories of a story file in source order. A story is an exported constant with a story type, or
an exported arrow function without parameters; assignments to its `args` add to those it declares.
-/
namespace ComponentCatalog.Story

open Text Code

/-- An exported constant: its name and what follows it. -/
def exportedConstant? (s : Text) : Option (Text × Text) := do
  let rest ← blanks? (← after? "export".toList s)
  word? (← blanks? (← after? "const".toList rest))

def storyTypes : List Text :=
  ["StoryFn".toList, "StoryObj".toList, "ComponentStory".toList, "Story".toList]

/-- A declaration found in the source. -/
structure Site where
  offset : Nat
  name : Text
  source : Text
  /-- The initial value of a constant with a story type. -/
  expression : Option Text

def typedShape : Shape Site := fun at_ => do
  let (name, rest) ← exportedConstant? at_.rest
  let rest ← after? [':'] (stripStart rest)
  let rest ← storyTypes.findSome? (afterName? · (stripStart rest))
  let rest ← after? ['='] (rest.dropWhile (· ≠ '='))
  let (expression, rest) ← afterMost isBlank (run? (· ≠ ';')) rest
  let rest := (after? [';'] rest).getD rest
  return (⟨at_.offset, name, upTo at_.rest rest, some expression⟩, at_.lengthTo rest)

/-- The length of a statement without its end mark: through a semicolon, or up to a line feed. -/
def statementLength : Text → Nat
  | [] => 0
  | c :: rest => if c = ';' then 1 else if c = '\n' then 0 else statementLength rest + 1

/-- The length of the body of an arrow function: a balanced block with the semicolon after it, or
else a statement. -/
def bodyLength (s : Text) : Nat :=
  let bracket := if s.head? = some '(' then round else curly
  match closing? bracket s with
  | some n => if s[n + 1]? = some ';' then n + 2 else n + 1
  | none => statementLength s

def plainShape : Shape Site := fun at_ => do
  let (name, rest) ← exportedConstant? at_.rest
  let rest ← after? ['('] (stripStart (← after? ['='] (stripStart rest)))
  let rest ← after? [')'] (stripStart rest)
  let rest := stripStart (← after? "=>".toList (stripStart rest))
  let length := at_.lengthTo rest
  return (⟨at_.offset, name, at_.rest.take (length + bodyLength rest), none⟩, length)

/-- The args block of an initial value: the object under `args`, or else the first braces. -/
def argsBlock? (expression : Text) : Option Text :=
  match blockAfter? curly (keyed "args".toList) expression with
  | some block => some block
  | none => block? curly (expression.dropWhile (· ≠ '\x7b'))

def ofSite (code : Text) (site : Site) : Except DigitError Story := do
  let args ← match site.expression.bind argsBlock? with
    | none => pure none
    | some block => (parseObjectLiteral block).map some
  return ⟨site.name, site.source, args, none, constantDescription site.name code⟩

/-- An assignment to the `args` of a name: the name and what follows the equals sign. -/
def assignmentShape : Shape (Text × Text) := fun at_ => do
  guard at_.atWordStart
  let (name, rest) ← word? at_.rest
  let rest ← after? ['='] (stripStart (← after? ".args".toList rest))
  let rest := stripStart rest
  return ((name, rest), at_.lengthTo rest)

/-- Changes the last story of a name. -/
def modifyLast (name : Text) (change : Story → Story) : List Story → List Story
  | [] => []
  | s :: rest =>
    if s.name = name ∧ rest.all (·.name ≠ name) then change s :: rest
    else s :: modifyLast name change rest

/-- The stories after one assignment; one to no story, or of no object, changes nothing. -/
def assign (stories : List Story) (assignment : Text × Text) : Except DigitError (List Story) :=
  let (name, value) := assignment
  if stories.any (·.name = name) then
    match block? curly value with
    | none => .ok stories
    | some block => do
      let entries ← parseObjectLiteral block
      return modifyLast name (fun s =>
        { s with args := some (Entries.setAll (s.args.getD []) entries) }) stories
  else .ok stories

/-- The stories of a file, in source order. -/
def listing (code : Text) : Except DigitError (List Story) := do
  let typed := hits typedShape code
  let plain := (hits plainShape code).filter fun site => typed.all (·.name ≠ site.name)
  let sites ← (typed ++ plain).mapM fun site => return (site.offset, ← ofSite code site)
  let stories := (sites.mergeSort fun a b => a.1 ≤ b.1).map (·.2)
  (hits assignmentShape code).foldlM assign stories

/-- What a story file declares for a component. -/
def fileOf (component code : Text) : Except DigitError StoryFile := do
  let settings ← settings code component
  let stories ← listing code
  return {
    component
    settings := { settings with stories }
    total := stories.length
    isInteractive := stories.any fun s => s.args.any (· ≠ [])
    hasExamples := stories ≠ [] }

def returnMarker : Shape Text := fun at_ => do
  guard at_.atWordStart
  let rest := stripStart (← after? "return".toList at_.rest)
  let after ← after? ['('] rest
  return (rest, at_.lengthTo after)

/-- The parenthesised results of a file's functions. -/
def examples (code : Text) : List Text :=
  ((hits returnMarker code).filterMap fun rest => (block? round rest).map strip).filter (· ≠ [])

/-- Texts that tell of interaction. -/
def interactionMarks : List Text :=
  ["action(".toList, "userEvent".toList, "fireEvent".toList, "args.".toList, "argTypes".toList,
    "controls:".toList]

def hasInteraction (code : Text) : Bool := interactionMarks.any (contains · code)

end ComponentCatalog.Story
