import ComponentCatalog.Dependency
import ComponentCatalog.Text.Class

/-!
Page templates over dependency trees: data and holes for values, with tests and loops around some of
them. A loop over nodes can be asked for again with the children of its node. Before it is filled a
template is trimmed, so that a line with nothing but a block tag leaves nothing in the page.
-/
namespace ComponentCatalog.Outline

open Text

/-- What the holes and tests of a template read. -/
structure Scope where
  record : DependencyTree
  /-- The item of the loop; the record outside of every loop. -/
  node : DependencyTree
  /-- The depth of the loop in itself, one for the outermost. -/
  depth : Nat
  /-- What the loop writes for the children of its item. -/
  again : Text

/-- How a block tag begins. A stripping one takes the blanks before it. -/
inductive Tag where
  | plain | stripping
  deriving DecidableEq, Repr

inductive Block where
  | when (test : Scope → Bool)
  | each (items : Scope → List DependencyTree)

inductive Part where
  | data (text : Text)
  | hole (value : Scope → Text)
  | block (block : Block) (opens closes : Tag) (body : List Part)

/-- What data follow: the start of the template, a block tag, or anything else. -/
inductive Before where
  | start | tag | other
  deriving DecidableEq, Repr

/-- The text without a line feed at its start. -/
def dropFeed : Text → Text
  | '\n' :: rest => rest
  | s => s

/-- The text without its last line, if that is blank and known to begin a line. -/
def dropIndent (beginsLine : Bool) (s : Text) : Text :=
  let kept := dropEndWhile (· ≠ '\n') s
  if (beginsLine || kept ≠ []) && (s.drop kept.length).all isBlank then kept else s

/-- Data in their place, with the block tag that follows them if there is one. -/
def trimData (before : Before) (after : Option Tag) (s : Text) : Text :=
  let beginsLine := match before with
    | .start => true
    | .tag => s.head? = some '\n'
    | .other => false
  let s := if before = .tag then dropFeed s else s
  match after with
  | none => s
  | some .plain => dropIndent beginsLine s
  | some .stripping => stripEnd s

/-- The tag that a part begins with. -/
def Part.opening? : Part → Option Tag
  | .block _ opens _ _ => some opens
  | .data _ | .hole _ => none

/-- What a part is for the data behind it. -/
def Part.ending : Part → Before
  | .block .. => .tag
  | .data _ | .hole _ => .other

mutual

def Part.trim (before : Before) (after : Option Tag) : Part → Part
  | .data text => .data (trimData before after text)
  | .hole value => .hole value
  | .block block opens closes body =>
    .block block opens closes (trimParts .tag (some closes) body)

/-- The parts between what is before all of them and the tag after all of them. -/
def trimParts (before : Before) (after : Option Tag) : List Part → List Part
  | [] => []
  | part :: parts =>
    let next := match parts with
      | [] => after
      | part :: _ => part.opening?
    part.trim before next :: trimParts part.ending after parts

end

mutual

/-- What the body of a loop writes for an item and, where it asks for it, for those below. -/
def loopOn (body : Scope → Text) (record : DependencyTree) (depth : Nat) : DependencyTree → Text
  | .node name dependencies components children =>
    body ⟨record, .node name dependencies components children, depth,
      loopOver body record (depth + 1) children⟩

def loopOver (body : Scope → Text) (record : DependencyTree) (depth : Nat) :
    List DependencyTree → Text
  | [] => []
  | tree :: trees => loopOn body record depth tree ++ loopOver body record depth trees

end

mutual

def Part.write (scope : Scope) : Part → Text
  | .data text => text
  | .hole value => value scope
  | .block (.when test) _ _ body => if test scope then writeParts scope body else []
  | .block (.each items) _ _ body =>
    loopOver (fun inner => writeParts inner body) scope.record 1 (items scope)

def writeParts (scope : Scope) : List Part → Text
  | [] => []
  | part :: parts => part.write scope ++ writeParts scope parts

end

/-- The text of a template for a tree. -/
def render (template : List Part) (t : DependencyTree) : Text :=
  writeParts ⟨t, t, 0, []⟩ (trimParts .start none template)

end ComponentCatalog.Outline
