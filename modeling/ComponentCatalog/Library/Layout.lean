import ComponentCatalog.Text.Basic

/-!
Where the files of a component library lie: a component `Name` has its files in the directory
`Name`, each named `Name` with a suffix.
-/
namespace ComponentCatalog

structure Layout where
  componentsPath : Text
  themesPath : Text
  /-- The names of the theme files, in the order in which they are read. -/
  themeFiles : List Text
  deriving DecidableEq, Repr

/-- The files that a component may have. -/
inductive ComponentFile where
  | source | stories | documentation | tests
  deriving DecidableEq, Repr

def ComponentFile.suffix : ComponentFile → Text
  | .source => ".tsx".toList
  | .stories => ".story.tsx".toList
  | .documentation => ".mdx".toList
  | .tests => ".test.tsx".toList

namespace Layout

/-- A path without the slashes around it. -/
def trim (path : Text) : Text := Text.dropEndWhile (· == '/') (path.dropWhile (· == '/'))

/-- The path of the file of a component with a suffix. -/
def pathWith (layout : Layout) (name suffix : Text) : Text :=
  trim layout.componentsPath ++ '/' :: name ++ '/' :: name ++ suffix

def componentPath (layout : Layout) (name : Text) (file : ComponentFile) : Text :=
  layout.pathWith name file.suffix

def themePath (layout : Layout) (file : Text) : Text := trim layout.themesPath ++ '/' :: file

end Layout

end ComponentCatalog
