import ComponentCatalog.Library.Layout
import ComponentCatalog.Record
import ComponentCatalog.Source.Provider

/-!
A component library: the files of a source under a layout, read and presented as records.
-/
namespace ComponentCatalog

structure Library (σ : Type) where
  provider : Provider σ
  layout : Layout
  /-- How many components may be fetched at once. -/
  workers : Int

namespace Library

def defaultWorkers : Int := 8

variable {σ : Type} (lib : Library σ)

/-- The text of a file of the source. -/
def fetch (path : Text) : Reading σ Text := do
  Reading.report .debug "library" ("Fetching ".toList ++ path)
  lib.provider.fetchText path

def file (name : Text) (file : ComponentFile) : Reading σ Text :=
  lib.fetch (lib.layout.componentPath name file)

/-- The component has such a file. -/
def has (name : Text) (file : ComponentFile) : Reading σ Bool :=
  Option.isSome <$> Reading.optional (lib.file name file)

/-- The names of all components, sorted. -/
def components : Reading σ (List Text) :=
  Text.sort <$> lib.provider.listDirectory lib.layout.componentsPath

/-- A component: its source file, and which of the other files there are. -/
def component (name : Text) : Reading σ Component := do
  let component := Component.ofSource name (← lib.file name .source)
  let hasStories ← lib.has name .stories
  let hasDocumentation ← lib.has name .documentation
  let hasTests ← lib.has name .tests
  return { component with hasStories, hasDocumentation, hasTests }

def stories (name : Text) : Reading σ StoryFile := do
  Reading.ofDigits (Story.fileOf name (← lib.file name .stories))

def document (name : Text) : Reading σ Document := do
  return Document.ofText name (← lib.file name .documentation)

def summary (name : Text) : Reading σ DocumentSummary := do
  return Document.summaryOf name (← lib.file name .documentation)

/-- The theme files that exist, joined by line feeds; there has to be one. -/
def themeSource : Reading σ Text := do
  let texts ← lib.layout.themeFiles.filterMapM fun name => do
    match ← Reading.optional (lib.fetch (lib.layout.themePath name)) with
    | some text => return some text
    | none =>
      Reading.report .debug "library" ("Theme file ".toList ++ name ++ " not found".toList)
      return none
  if texts = [] then Reading.fail (.noThemeFiles lib.layout.themesPath)
  return Text.join ['\n'] texts

/-- The theme, or one category of it if a name is given. -/
def theme (category? : Option Text) : Reading σ Theme := do
  let theme ← Reading.ofDigits (Theme.ofSource (← lib.themeSource))
  match category? with
  | none | some [] => return theme
  | some category => return theme.inCategory category

def themeFacts : Reading σ Theme.Facts := do
  Reading.ofDigits (Theme.factsOf (← lib.themeSource))

end Library

end ComponentCatalog
