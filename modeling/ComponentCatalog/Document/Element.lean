import ComponentCatalog.Text.Scan

/-!
Elements in markup. `elements` are the outermost elements that have a closing tag of their own,
leftmost first.
-/
namespace ComponentCatalog.Document

open Text

/-- What follows the first `>`. -/
def afterTagEnd? (s : Text) : Option Text := after? ['>'] (s.dropWhile (· ≠ '>'))

/-- The tag at the head of a text without its `>`, and what follows it. -/
def cutTag? (s : Text) : Option (Text × Text) := cut? ['>'] s

/-- A tag without its `>` closes itself. -/
def isSelfClosing (tag : Text) : Bool := endsWith ['/'] tag

/-- The name of an opening or self-closing tag. -/
def openName? (s : Text) : Option Text := do
  let (name, _) ← word? (← after? ['<'] s)
  return name

/-- A tag of the given name, as the change of depth it makes and the offset of its end. -/
def tagShape (name : Text) : Shape (Int × Nat) := fun at_ => do
  let rest ← after? ['<'] at_.rest
  let (closes, rest) := match after? ['/'] rest with
    | some rest => (true, rest)
    | none => (false, rest)
  let _ ← afterName? name rest
  let (tag, _) ← cutTag? at_.rest
  let change := if closes then -1 else if isSelfClosing tag then 0 else 1
  return ((change, at_.offset + tag.length + 1), tag.length + 1)

/-- The end of the first tag at which the depth, raised by every change before, comes to zero. -/
def balancedEnd? : (depth : Int) → List (Int × Nat) → Option Nat
  | _, [] => none
  | depth, (change, last) :: more =>
    if change < 0 ∧ depth + change = 0 then some last else balancedEnd? (depth + change) more

/-- How much of the text after an opening tag its element takes. -/
def matchingClose? (name s : Text) : Option Nat := balancedEnd? 1 (hits (tagShape name) s)

/-- An element with its tag name. A self-closing tag is stepped over; from an opening tag without a
closing one the search goes on at its second character. -/
def elementShape : Shape (Option (Text × Text)) := fun at_ => do
  let name ← openName? at_.rest
  let (tag, rest) ← cutTag? at_.rest
  let length := tag.length + 1
  if isSelfClosing tag then return (none, length)
  else match matchingClose? name rest with
    | none => return (none, 1)
    | some tail => return (some (name, at_.rest.take (length + tail)), length + tail)

/-- The elements of a text with their tag names. -/
def elements (s : Text) : List (Text × Text) := (hits elementShape s).filterMap id

end ComponentCatalog.Document
