import ComponentCatalog.Component.Basic
import ComponentCatalog.Story.Listing
import ComponentCatalog.Document.Summary
import ComponentCatalog.Theme.Facts
import ComponentCatalog.Dependency

/-!
What the catalogue presents. `extract` reads a source file of a known kind into its record.
-/
namespace ComponentCatalog

inductive Record where
  | component (c : Component)
  | stories (f : StoryFile)
  | document (d : Document)
  | summary (s : DocumentSummary)
  | theme (t : Theme)
  | themeFacts (f : Theme.Facts)
  | dependencies (t : DependencyTree)
  /-- Any other value. -/
  | plain (value : Node)

namespace Record

def node : Record → Node
  | .component c => c.node
  | .stories f => f.node
  | .document d => d.node
  | .summary s => s.node
  | .theme t => t.node
  | .themeFacts f => f.node
  | .dependencies t => t.record
  | .plain value => value

end Record

/-- The name of the kind of a value. -/
def Node.kindName : Node → Text
  | .null => "NoneType".toList
  | .bool _ => "bool".toList
  | .int _ => "int".toList
  | .float _ => "float".toList
  | .text _ => "str".toList
  | .list _ => "list".toList
  | .mapping _ => "dict".toList
  | .record kind _ => kind

/-- The kinds of source file that a record can be read from. -/
inductive SourceKind where
  | component | docs | stories | theme
  deriving DecidableEq, Repr

def SourceKind.names : List (Text × SourceKind) :=
  [("component".toList, .component), ("docs".toList, .docs), ("stories".toList, .stories),
    ("theme".toList, .theme)]

def SourceKind.ofName? (name : Text) : Option SourceKind := List.lookup name names

/-- The refusal of a kind that is not known. -/
def SourceKind.unknownMessage (name : Text) : Text :=
  "Unknown extractor '".toList ++ name ++ "' (expected one of: ".toList ++
    Text.join ", ".toList (names.map (·.1)) ++ [')']

/-- The record of a source text. -/
def extract (kind : SourceKind) (name text : Text) : Except DigitError Record :=
  match kind with
  | .component => .ok (.component (.ofSource name text))
  | .docs => .ok (.document (.ofText name text))
  | .stories => (Story.fileOf name text).map .stories
  | .theme => (Theme.ofSource text).map .theme

end ComponentCatalog
