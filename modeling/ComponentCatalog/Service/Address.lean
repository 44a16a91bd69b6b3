import ComponentCatalog.Source.Url

/-!
The address of a request: a path and the parameters after its question mark.
-/
namespace ComponentCatalog.Service

open Text

structure Address where
  /-- The path with its escapes resolved. -/
  path : Text
  parameters : List (Text × Text)
  deriving DecidableEq, Repr

namespace Address

/-- Enters a segment of a path; a segment of two dots leaves the one before, but not the first. -/
def enter (entered : List Text) (segment : Text) : List Text :=
  if segment = ['.'] then entered
  else if segment = ['.', '.'] then
    if entered = [] ∨ entered = [[]] then entered else entered.dropLast
  else entered ++ [segment]

/-- The path without segments of dots. -/
def withoutDots (path : Text) : Text := join ['/'] ((path.splitOn '/').foldl enter [])

/-- An absolute path without the host that two leading slashes introduce. -/
def absolute (path : Text) : Text :=
  let path := match path with
    | '/' :: '/' :: rest => rest.dropWhile (· != '/')
    | path => path
  '/' :: path.dropWhile (· == '/')

/-- A parameter: plus signs are blanks, and what has no equals sign is a name without a value. -/
def parameterOf (s : Text) : Text × Text :=
  let plain (s : Text) := Url.unquote (s.map fun c => if c = '+' then ' ' else c)
  match cut? ['='] s with
  | some (name, value) => (plain name, plain value)
  | none => (plain s, [])

def parametersOf (s : Text) : List (Text × Text) :=
  ((s.splitOn '&').filter (· ≠ [])).map parameterOf

/-- Reads an address. Parameters given apart stand in place of those of the text. The escapes of a
path are resolved once by the sender and once by the receiver. -/
def ofText (s : Text) (apart : Option (List (Text × Text))) : Address :=
  let s := before ['#'] s
  let (path, inText) := match cut? ['?'] s with
    | some (path, query) => (path, parametersOf query)
    | none => (s, [])
  ⟨Url.unquote (Url.unquote (withoutDots (absolute path))), apart.getD inText⟩

/-- The last value of a parameter. -/
def value? (a : Address) (name : String) : Option Text :=
  List.lookup name.toList a.parameters.reverse

end Address

end ComponentCatalog.Service
