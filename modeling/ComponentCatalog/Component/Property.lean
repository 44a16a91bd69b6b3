import ComponentCatalog.Node
import ComponentCatalog.Code.Split
import ComponentCatalog.Code.Comment

/-!
The properties of a component: the fields of the type or interface that declares them, with the
defaults of the component's destructured parameter.
-/
namespace ComponentCatalog.Component

open Text Code

structure Property where
  name : Text
  type : Text
  required : Bool
  description : Option Text
  default : Option Text
  deriving DecidableEq, Repr

def Property.node (p : Property) : Node :=
  .recordOf "PropDefinition" [("name", .text p.name), ("type", .text p.type),
    ("required", .bool p.required), ("description", .optional .text p.description),
    ("default_value", .optional .text p.default)]

/-- The names under which the properties of a component may be declared, best first. -/
def interfaceNames (component : Text) : List Text :=
  [component ++ "Props".toList, 'I' :: component ++ "Props".toList,
    component ++ "Properties".toList, "CommonProps".toList]

/-- The first of the component's interface names that `type` or `interface` and a space precede
somewhere in the source. -/
def interfaceOf? (code component : Text) : Option Text :=
  (interfaceNames component).find? fun name =>
    contains ("type ".toList ++ name) code || contains ("interface ".toList ++ name) code

/-- The declaration of a type or interface, up to its body or a semicolon. -/
def declarationMarker (name : Text) : Marker := fun at_ => do
  let rest ← afterAny? ["type".toList, "interface".toList] at_.rest
  let (_, rest) ← one? isBlank rest
  let rest ← afterMost isBlank (afterName? name) rest
  return rest.dropWhile fun c => c ≠ '\x7b' && c ≠ ';'

/-- A line comment or a finished block comment, as the offsets of its ends. -/
def commentShape : Shape (Nat × Nat) := fun at_ => do
  let rest ← match at_.rest with
    | '/' :: '/' :: rest => some (rest.dropWhile (· ≠ '\n'))
    | '/' :: '*' :: rest => (cut? "*/".toList rest).map (·.2)
    | _ => none
  return ((at_.offset, at_.offset + at_.lengthTo rest), at_.lengthTo rest)

def typeCloser? (c : Char) : Option Char :=
  List.lookup c [('(', ')'), ('[', ']'), ('\x7b', '\x7d'), ('<', '>')]

def isTypeCloser (c : Char) : Bool := c == ')' || c == ']' || c == '\x7d' || c == '>'

/-- The length of the type expression here: up to a comma, a semicolon or a line feed outside
brackets, or to a closing bracket that none opened. The arrow `=>` closes nothing. -/
def typeLength : (awaited : List Char) → (previous : Option Char) → Text → Nat
  | _, _, [] => 0
  | awaited, previous, c :: rest =>
    match typeCloser? c with
    | some closer => typeLength (closer :: awaited) (some c) rest + 1
    | none =>
      if isTypeCloser c then
        if c = '>' ∧ previous = some '=' then typeLength awaited (some c) rest + 1
        else match awaited with
          | [] => 0
          | closer :: outer => typeLength (if c = closer then outer else awaited) (some c) rest + 1
      else if awaited = [] ∧ (c = ',' ∨ c = ';' ∨ c = '\n') then 0
      else typeLength awaited (some c) rest + 1

/-- The head of a field: its doc comment, if any, its name and whether it is optional. -/
structure FieldHead where
  comment : Option Text
  /-- The text from the name on. -/
  name : Text
  rest : Text
  optional : Bool

/-- A name, a question mark if any, a colon, and what follows the blanks after it. -/
def fieldName? (comment : Option Text) (start : Text) : Option FieldHead := do
  let (name, rest) ← word? start
  let optional := rest.head? = some '?'
  let rest ← after? [':'] (if optional then rest.tail else rest)
  return ⟨comment, name, stripStart rest, optional⟩

def fieldHead? (s : Text) : Option (FieldHead × Nat) :=
  match docComment? s with
  | some (inside, rest) =>
    let start := stripStart rest
    (fieldName? (some inside) start).map fun head => (head, s.length - start.length)
  | none => (fieldName? none s).map fun head => (head, 0)

/-- A field outside the comments, with its type; a field head inside one is stepped over with the
comment. -/
def fieldShape (comments : List (Nat × Nat)) : Shape (Option Property) := fun at_ => do
  let (head, lead) ← fieldHead? at_.rest
  let start := at_.offset + lead
  match comments.find? fun (first, last) => first ≤ start && start < last with
  | some (_, last) => return (none, last - at_.offset)
  | none =>
    let length := typeLength [] none head.rest
    let type := strip (head.rest.take length)
    let property : Property :=
      ⟨head.name, type, !head.optional, head.comment.bind firstCommentLine, none⟩
    return (if type = [] then none else some property, at_.lengthTo head.rest + length)

def documentedFields (body : Text) : List Property :=
  (hits (fieldShape (hits commentShape body)) body).filterMap id

/-- A name, a question mark if any, a colon, and a value up to a comma, a semicolon or a line
feed. -/
def plainFieldShape : Shape (Text × Bool × Text) := fun at_ => do
  let (name, rest) ← word? at_.rest
  let optional := rest.head? = some '?'
  let rest ← after? [':'] (if optional then rest.tail else rest)
  let (type, rest) ← afterMost isBlank (run? fun c => c ≠ ';' && c ≠ ',' && c ≠ '\n') rest
  return ((name, optional, type), at_.lengthTo rest)

/-- The comment on the line before the first line that has the name and a colon. -/
def lineDescription (bodyLines : List Text) (name : Text) : Option Text := do
  let index ← bodyLines.findIdx? (contains (name ++ [':']))
  guard (0 < index)
  let previous ← bodyLines[index - 1]?
  let comment := strip previous
  guard (["/**".toList, "*".toList, "//".toList].any (startsWith · comment))
  let description := strip (withoutCommentMarks comment)
  guard (description ≠ [])
  return description

def plainFields (body : Text) : List Property :=
  (hits plainFieldShape body).map fun (name, optional, type) =>
    ⟨name, strip type, !optional, lineDescription (lines body) name, none⟩

/-- The fields of the body of the declaration of `name`. -/
def declaredProperties (code name : Text) : List Property :=
  match blockAfter? curly (declarationMarker name) code with
  | none => []
  | some body =>
    match documentedFields body with
    | [] => plainFields body
    | fields => fields

/-- The declaration of the constant or function `name`. -/
def componentShape (name : Text) : Shape Text := fun at_ => do
  let rest ← afterAny? ["const".toList, "function".toList] at_.rest
  let (_, rest) ← one? isBlank rest
  let rest ← afterMost isBlank (afterName? name) rest
  return (rest, at_.lengthTo rest)

/-- A parenthesis and a brace after it, as the offset of the brace. -/
def destructuringShape : Shape Nat := fun at_ => do
  let rest ← after? ['('] at_.rest
  let rest := stripStart rest
  let after ← after? ['\x7b'] rest
  return (at_.offset + at_.lengthTo rest, at_.lengthTo after)

/-- The name and the default of one destructured entry; a name after a colon is local. -/
def defaultEntry? (entry : Text) : Option (Text × Text) := do
  let (key, value) ← cut? ['='] entry
  let key := strip (before [':'] key)
  let value := strip value
  guard (key ≠ [] ∧ key.all isWord ∧ value ≠ [])
  return (key, value)

/-- The defaults in the destructured parameter of the component, up to the first arrow. -/
def defaultValues (code component : Text) : Entries Text :=
  let block? := do
    let rest ← firstHit (componentShape component) code
    let brace ← firstHit destructuringShape (before "=>".toList rest)
    block? curly (rest.drop brace)
  match block? with
  | none => []
  | some block => Entries.ofPairs ((splitTopLevel (some ',') block).filterMap defaultEntry?)

/-- The property with its default, if it has one. -/
def Property.withDefault (defaults : Entries Text) (p : Property) : Property :=
  match Entries.get? p.name defaults with
  | some value => { p with default := some value }
  | none => p

/-- The declared properties of a component with their defaults. -/
def propertiesOf (code component : Text) : List Property :=
  match interfaceOf? code component with
  | none => []
  | some name =>
    (declaredProperties code name).map (Property.withDefault (defaultValues code component))

end ComponentCatalog.Component
