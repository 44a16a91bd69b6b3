import ComponentCatalog.Node
import ComponentCatalog.Text.Scan

/-!
Import statements of a component source: the statements themselves, the external modules among them,
and the sibling components they name.
-/
namespace ComponentCatalog.Component

open Text

/-- What one import statement brings in. -/
structure Import where
  module : Text
  names : List Text
  isDefault : Bool
  isNamespace : Bool
  deriving DecidableEq, Repr

def Import.node (i : Import) : Node :=
  .recordOf "ImportDefinition" [("module", .text i.module), ("imports", .texts i.names),
    ("is_default", .bool i.isDefault), ("is_namespace", .bool i.isNamespace)]

def isSpecifierChar (c : Char) : Bool := c == '@' || c == '/' || c == '-' || c == '.' || isWord c

/-- Blanks, `from`, blanks and a quoted text of characters satisfying `p`. -/
def fromClause? (p : Char → Bool) (s : Text) : Option (Text × Text) := do
  let rest ← blanks? s
  let rest ← after? "from".toList rest
  let rest ← blanks? rest
  let (_, rest) ← one? isQuote rest
  let (module, rest) ← run? p rest
  let (_, rest) ← one? isQuote rest
  return (module, rest)

/-- `import`, text without quotes and semicolons between blanks, and a module specifier. -/
def specifierShape : Shape Text := fun at_ => do
  let rest ← after? "import".toList at_.rest
  let (_, rest) ← one? isBlank rest
  let (module, rest) ← afterMost isBlank
    (afterLeast (fun c => c != ';' && !isQuote c) (fromClause? isSpecifierChar)) rest
  return (module, at_.lengthTo rest)

/-- A specifier of a file of this repository. -/
def isLocal (module : Text) : Bool :=
  ["./".toList, "../".toList, "@/".toList].any (startsWith · module)

/-- The external modules that a source imports, each once, in the order of the first import. -/
def dependenciesIn (code : Text) : List Text :=
  distinct ((hits specifierShape code).filter fun module => !isLocal module)

/-- What follows the bindings that begin here: a list in braces, `* as` and a name, or a name. -/
def afterBindings? : Text → Option Text
  | '\x7b' :: rest => after? ['\x7d'] (rest.dropWhile (· ≠ '\x7d'))
  | '*' :: rest => do
    let rest ← after? "as".toList (← blanks? rest)
    let (_, rest) ← word? (← blanks? rest)
    return rest
  | s => (word? s).map (·.2)

/-- The bindings, the module and what follows them, where the last bindings begin at `start`. -/
def bindingsFrom? (s start : Text) : Option (Text × Text × Text) := do
  let rest ← afterBindings? start
  let (module, tail) ← fromClause? (fun c => !isQuote c) rest
  return (upTo s rest, module, tail)

/-- The bindings of a statement, after a name and a comma if there are any, and its module. -/
def clause? (s : Text) : Option (Text × Text × Text) :=
  ((word? s).bind fun (_, rest) =>
    (after? [','] rest).bind fun rest => bindingsFrom? s (stripStart rest)).or (bindingsFrom? s s)

/-- An import statement, its bindings and its module; the word `type` may precede the bindings. -/
def statementShape : Shape (Text × Text) := fun at_ => do
  let rest ← blanks? (← after? "import".toList at_.rest)
  let (bindings, module, tail) ←
    ((after? "type".toList rest).bind fun rest => (blanks? rest).bind clause?).or (clause? rest)
  return ((bindings, module), at_.lengthTo tail)

/-- The name that a namespace is bound to. -/
def namespaceShape : Shape Text := fun at_ => do
  let rest ← blanks? (← after? ['*'] at_.rest)
  let (name, rest) ← word? (← blanks? (← after? "as".toList rest))
  return (name, at_.lengthTo rest)

def Import.ofBindings (bindings module : Text) : Import :=
  match firstHit namespaceShape bindings with
  | some name => ⟨module, [name], false, true⟩
  | none =>
    if '\x7b' ∈ bindings then
      let names := (bindings.filter fun c => c ≠ '\x7b' && c ≠ '\x7d').splitOn ','
      ⟨module, (names.map strip).filter (· ≠ []), false, false⟩
    else ⟨module, [strip bindings], true, false⟩

/-- The import statements of a source, in order. -/
def importsIn (code : Text) : List Import :=
  (hits statementShape code).map fun (bindings, module) => .ofBindings bindings module

/-- The component in the directory beside this one that a module path names. -/
def siblingOf? (module : Text) : Option Text := do
  let rest ← after? "../".toList module
  let c ← rest.head?
  guard c.isUpper
  return rest.takeWhile isWord

/-- The sibling components that a source imports, each once. -/
def siblingsIn (code : Text) : List Text :=
  distinct ((importsIn code).filterMap fun i => siblingOf? i.module)

end ComponentCatalog.Component
