import ComponentCatalog.Node

/-!
What a component imports: external packages and sibling components, and for deep lookups the same of
the siblings.
-/
namespace ComponentCatalog

inductive DependencyTree where
  | node (name : Text) (dependencies components : List Text) (children : List DependencyTree)
  deriving Inhabited

namespace DependencyTree

def name : DependencyTree → Text
  | .node name _ _ _ => name

def dependencies : DependencyTree → List Text
  | .node _ dependencies _ _ => dependencies

def components : DependencyTree → List Text
  | .node _ _ components _ => components

def children : DependencyTree → List DependencyTree
  | .node _ _ _ children => children

/-- The mention of a component that is expanded elsewhere. -/
def leaf (name : Text) : DependencyTree := .node name [] [] []

mutual

def record : DependencyTree → Node
  | .node name dependencies components children =>
    .recordOf "DependencyNode" [("name", .text name), ("dependencies", .texts dependencies),
      ("components", .texts components), ("children", .list (records children))]

def records : List DependencyTree → List Node
  | [] => []
  | tree :: trees => tree.record :: records trees

end

end DependencyTree

end ComponentCatalog
