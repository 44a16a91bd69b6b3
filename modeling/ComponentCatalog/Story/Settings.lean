import ComponentCatalog.Story.Basic
import ComponentCatalog.Code.Split

/-!
The settings of a story file: title, component, controls, parameters and decorators of its default
export.
-/
namespace ComponentCatalog.Story

open Text Code

/-- `export default` and the blanks after it. -/
def defaultExportMarker : Marker := fun at_ => do
  let rest ← blanks? (← after? "export".toList at_.rest)
  let rest ← after? "default".toList rest
  return stripStart rest

/-- A default export of a name on its own. -/
def defaultNameShape : Shape Text := fun at_ => do
  let rest ← blanks? (← after? "export".toList at_.rest)
  let (name, rest) ← word? (← blanks? (← after? "default".toList rest))
  let rest ← after? [';'] (stripStart rest)
  return (name, at_.lengthTo rest)

/-- The declaration of a variable, through its equals sign. -/
def variableMarker (name : Text) : Marker := fun at_ => do
  let rest ← afterAny? ["const".toList, "let".toList, "var".toList] at_.rest
  let (_, rest) ← one? isBlank rest
  let rest ← afterMost isBlank (afterName? name) rest
  after? ['='] (rest.dropWhile (· ≠ '='))

/-- The object exported by default, in place or through the variable that holds it. -/
def defaultExportBody? (code : Text) : Option Text :=
  (blockAfter? curly defaultExportMarker code).or
    ((firstHit defaultNameShape code).bind fun name => blockAfter? curly (variableMarker name) code)

/-- The key at the beginning of a word, its colon, and blanks. -/
def afterKey? (key : Text) (at_ : Cursor) : Option Text := do
  guard at_.atWordStart
  let rest ← after? [':'] (← after? key at_.rest)
  return stripStart rest

def titleShape : Shape Text := fun at_ => do
  let (_, rest) ← one? isStringMark (← afterKey? "title".toList at_)
  let (title, rest) ← run? (fun c => !isStringMark c) rest
  let (_, rest) ← one? isStringMark rest
  return (title, at_.lengthTo rest)

def componentNameShape : Shape Text := fun at_ => do
  let (name, rest) ← word? (← afterKey? "component".toList at_)
  return (name, at_.lengthTo rest)

/-- The entries of the first `decorators` list. -/
def decorators (code : Text) : List Text :=
  match blockAfter? square (keyed "decorators".toList) code with
  | none => []
  | some block => splitTopLevel (some ',') block

/-- The literal entries of the first object under a key. -/
def entriesUnder (key code : Text) : Except DigitError (Option (Entries Value)) :=
  match blockAfter? curly (keyed key) code with
  | none => .ok none
  | some block => (parseObjectLiteral block).map some

/-- The settings of a story file, without its stories; `component` is their component unless they
name another. -/
def settings (code component : Text) : Except DigitError StorySettings :=
  match defaultExportBody? code with
  | none => .ok ⟨[], component, [], none, none, none⟩
  | some body => do
    let argTypes ← entriesUnder "argTypes".toList body
    let parameters ← entriesUnder "parameters".toList body
    let found := decorators body
    return {
      title := (firstHit titleShape body).getD []
      component := (firstHit componentNameShape body).getD component
      stories := []
      argTypes, parameters
      decorators := if found = [] then none else some found }

/-- A control and its settings in braces. The last control may lack its closing brace; nothing
follows it then. -/
def controlShape : Shape (Option (Text × Text)) := fun at_ => do
  guard at_.atWordStart
  let (name, rest) ← word? at_.rest
  let rest ← after? [':'] (stripStart rest)
  let rest := stripStart rest
  guard (rest.head? = some '\x7b')
  match block? curly rest with
  | some config => return (some (name, config), at_.lengthTo rest + config.length + 2)
  | none => return (none, at_.rest.length)

/-- The settings of every control under `argTypes`. -/
def controls (code : Text) : Except DigitError (Entries (Entries Value)) :=
  match blockAfter? curly (keyed "argTypes".toList) code with
  | none => .ok []
  | some block => do
    let pairs ← ((hits controlShape block).filterMap id).mapM fun (name, config) =>
      return (name, ← parseObjectLiteral config)
    return Entries.ofPairs pairs

end ComponentCatalog.Story
