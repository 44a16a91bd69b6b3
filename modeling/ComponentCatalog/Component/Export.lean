import ComponentCatalog.Node
import ComponentCatalog.Text.Scan
import ComponentCatalog.Text.Case

/-!
Exported names of a component source, in the order in which they stand, and their kinds by naming
convention.
-/
namespace ComponentCatalog.Component

open Text

inductive ExportKind where
  | type
  | component
  | const
  | function
  deriving DecidableEq, Repr

def ExportKind.name : ExportKind → Text
  | .type => "type".toList
  | .component => "component".toList
  | .const => "const".toList
  | .function => "function".toList

structure Export where
  name : Text
  kind : Text
  isDefault : Bool
  deriving DecidableEq, Repr

def Export.node (e : Export) : Node :=
  .recordOf "ExportDefinition" [("name", .text e.name), ("kind", .text e.kind),
    ("is_default", .bool e.isDefault)]

/-- What a name denotes by convention. -/
def kindOf (name : Text) : ExportKind :=
  if ["Props".toList, "Type".toList, "Interface".toList].any (endsWith · name) then .type
  else if name.take 1 = upper (name.take 1) ∧ '_' ∉ name then .component
  else if '_' ∈ name ∨ upper name = name then .const
  else .function

/-- `lead` and blanks after it, both or neither. -/
def optionalWord (lead s : Text) : Text := ((after? lead s).bind blanks?).getD s

/-- The keywords that introduce an exported declaration, one family each. -/
def declarationLeads : List (Text → Option Text) :=
  [afterAny? ["type".toList, "interface".toList],
    afterAny? ["const".toList, "let".toList, "var".toList],
    fun s => (after? "function".toList (optionalWord "async".toList s)).map fun rest =>
      (after? ['*'] rest).getD rest,
    fun s => after? "class".toList (optionalWord "abstract".toList s)]

/-- An exported declaration: the offset and text of its name. -/
def declarationShape (lead : Text → Option Text) : Shape (Nat × Text) := fun at_ => do
  let rest ← blanks? (← after? "export".toList at_.rest)
  let start ← blanks? (← lead rest)
  let (name, rest) ← word? start
  return ((at_.offset + at_.lengthTo start, name), at_.lengthTo rest)

/-- The names before `as` in the entries of an export list, each at the offset of its entry. -/
def listedNames : (offset : Nat) → List Text → List (Nat × Text)
  | _, [] => []
  | offset, entry :: entries =>
    let name := strip (before " as ".toList (strip entry))
    let more := listedNames (offset + entry.length + 1) entries
    if name = [] then more else (offset, name) :: more

/-- An export list in braces. -/
def listShape : Shape (List (Nat × Text)) := fun at_ => do
  let rest ← blanks? (← after? "export".toList at_.rest)
  let start ← after? ['\x7b'] rest
  let (entries, rest) ← run? (· ≠ '\x7d') start
  let rest ← after? ['\x7d'] rest
  return (listedNames (at_.offset + at_.lengthTo start) (entries.splitOn ','), at_.lengthTo rest)

/-- The exported names with their offsets, by form of declaration. -/
def exportSites (code : Text) : List (Nat × Text) :=
  (declarationLeads.flatMap fun lead => hits (declarationShape lead) code) ++
    (hits listShape code).flatten

/-- The exported names in source order, each once. -/
def exportedNames (code : Text) : List Text :=
  distinct (((exportSites code).mergeSort fun a b => a.1 ≤ b.1).map (·.2))

/-- The name of a default export, after the keywords of a function or class if a name follows
them. -/
def defaultShape : Shape Text := fun at_ => do
  let rest ← blanks? (← after? "export".toList at_.rest)
  let rest ← blanks? (← after? "default".toList rest)
  let afterWord (keyword s : Text) : Option Text := (after? keyword s).bind blanks?
  let starts : List (Option Text) :=
    [(afterWord "async".toList rest).bind (afterWord "function".toList),
      afterWord "function".toList rest, afterWord "class".toList rest, some rest]
  let (name, rest) ← starts.findSome? fun start => start.bind word?
  return (name, at_.lengthTo rest)

/-- The exports of a source, in order. -/
def exportsIn (code : Text) : List Export :=
  let defaults := hits defaultShape code
  (exportedNames code).map fun name => ⟨name, (kindOf name).name, defaults.contains name⟩

end ComponentCatalog.Component
