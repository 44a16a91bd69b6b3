import ComponentCatalog.Code.Bracket

/-!
Splitting at a separator that no bracket and no string literal encloses.
-/
namespace ComponentCatalog.Code

open Text

def isOpening (c : Char) : Bool := c == '(' || c == '[' || c == '{'
def isClosing (c : Char) : Bool := c == ')' || c == ']' || c == '}'

/-- The pieces between separators at depth zero. A closing bracket at depth zero opens nothing and
closes nothing. -/
def piecesFrom (separator : Option Char) : (skip depth : Nat) → Text → List Text
  | _, _, [] => [[]]
  | skip + 1, depth, c :: rest => prepend c (piecesFrom separator skip depth rest)
  | 0, depth, c :: rest =>
    if isStringMark c then prepend c (piecesFrom separator (stringTail c rest) depth rest)
    else if isOpening c then prepend c (piecesFrom separator 0 (depth + 1) rest)
    else if isClosing c ∧ 0 < depth then prepend c (piecesFrom separator 0 (depth - 1) rest)
    else if separator = some c ∧ depth = 0 then [] :: piecesFrom separator 0 0 rest
    else prepend c (piecesFrom separator 0 depth rest)

/-- The pieces of a text at its top-level separators, without the blanks around them and without
empty ones. -/
def splitTopLevel (separator : Option Char) (s : Text) : List Text :=
  ((piecesFrom separator 0 0 s).map strip).filter (· ≠ [])

end ComponentCatalog.Code
