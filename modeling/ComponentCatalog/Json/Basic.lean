import ComponentCatalog.Code.Literal

/-!
JSON values. Integers keep every digit, and objects keep the order of their members.
-/
namespace ComponentCatalog

inductive Json where
  | null
  | bool (b : Bool)
  | int (n : Int)
  | float (x : Float)
  | text (s : Text)
  | list (items : List Json)
  | object (members : List (Text × Json))
  deriving Inhabited

namespace Json

/-- The member of an object under a name. -/
def member? (name : Text) : Json → Option Json
  | .object members => Entries.get? name members
  | _ => none

def text? : Json → Option Text
  | .text s => some s
  | _ => none

end Json

end ComponentCatalog
