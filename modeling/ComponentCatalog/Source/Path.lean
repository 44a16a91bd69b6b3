import ComponentCatalog.Text.Class

/-!
Paths. A path inside a source is normalized text; a place in the file system is the list of the
directory names from the top, so that containment is being an initial segment.
-/
namespace ComponentCatalog

open Text

/-- The segments of a path that name something. -/
def segments (path : Text) : List Text :=
  (path.splitOn '/').filter fun part => part ≠ [] ∧ part ≠ ['.']

/-- The path without blanks around it, surrounding slashes, empty segments and `.` segments. -/
def normalizePath (path : Text) : Text := join ['/'] (segments (strip path))

/-- The slashes that make a path absolute: two stay two, any other number is one. -/
def leadingSlashes : Text → Text
  | '/' :: '/' :: '/' :: _ => ['/']
  | '/' :: '/' :: _ => ['/', '/']
  | '/' :: _ => ['/']
  | _ => []

/-- The path of the directory that a path lies in; a point where no name is left. -/
def parentPath (path : Text) : Text :=
  match leadingSlashes path ++ join ['/'] (segments path).dropLast with
  | [] => ['.']
  | parent => parent

/-- A place in the file system: the names on the way to it from the top. -/
abbrev Place := List Text

namespace Place

/-- One segment on; `..` leads up, at the top to itself. -/
def enter (place : Place) (segment : Text) : Place :=
  if segment = ['.', '.'] then place.dropLast else place ++ [segment]

/-- The place that a path leads to: from the top if it begins with a slash, else from `place`. -/
def follow (place : Place) (path : Text) : Place :=
  (segments path).foldl enter (if startsWith ['/'] path then [] else place)

/-- The absolute path of a place. -/
def text (place : Place) : Text := '/' :: join ['/'] place

/-- The text of the path from a place, in which `..` segments stay as they are. -/
def join (place : Place) (path : Text) : Text :=
  match leadingSlashes path with
  | [] => text (place ++ segments path)
  | lead => lead ++ Text.join ['/'] (segments path)

/-- The place is `root` or lies below it. -/
def isWithin (root place : Place) : Bool := root.isPrefixOf place

end Place

end ComponentCatalog
