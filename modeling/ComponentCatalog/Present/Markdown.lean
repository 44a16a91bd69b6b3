import ComponentCatalog.Record
import ComponentCatalog.Display
import ComponentCatalog.Present.Outline

/-!
Markdown pages. A page is a list of lines; `page` joins them and drops the blanks around the whole.
The page of a dependency tree, which is as deep as the tree, is written by a template with a loop.
-/
namespace ComponentCatalog.Markdown

open Text

/-- The lines of a page as its text. -/
def page (lines : List Text) : Text := strip (join ['\n'] lines) ++ ['\n']

/-- A table cell: bars are escaped, and a line feed becomes a space. -/
def cell (s : Text) : Text :=
  s.flatMap fun c => if c = '|' then ['\\', '|'] else if c = '\n' then [' '] else [c]

def optionalCell (s : Option Text) : Text := cell (s.getD [])

def yesNo (b : Bool) : Text := if b then "yes".toList else "no".toList

def code (s : Text) : Text := '\x60' :: s ++ ['\x60']

/-- A table row. -/
def row (cells : List Text) : Text := "| ".toList ++ join " | ".toList cells ++ " |".toList

def rule (columns : Nat) : Text := row (List.replicate columns "---".toList)

/-- The texts joined by commas, or a word for none. -/
def listed (items : List Text) : Text :=
  if items = [] then "none".toList else join ", ".toList items

/-- The lines, and an empty line after them if there are any. -/
def paragraph (s : Option Text) : List Text :=
  match s with
  | none | some [] => []
  | some s => [s, []]

/-- The lines, or a line that says there are none. -/
def orNone (lines : List Text) : List Text := if lines = [] then ["None.".toList] else lines

def propertyRow (p : Component.Property) : Text :=
  row [code p.name, code (cell p.type), yesNo p.required, optionalCell p.default,
    optionalCell p.description]

def exportLine (e : Component.Export) : Text :=
  "- ".toList ++ code e.name ++ " (".toList ++ e.kind ++
    (if e.isDefault then ", default".toList else []) ++ [')']

def component (c : Component) : Text :=
  page <|
    ["# ".toList ++ c.name, []] ++ paragraph c.description ++
    [row ["Stories".toList, "Documentation".toList, "Tests".toList], rule 3,
      row [yesNo c.hasStories, yesNo c.hasDocumentation, yesNo c.hasTests], [],
      "## Props".toList, []] ++
    (if c.properties = [] then ["No props found.".toList]
      else row ["Name".toList, "Type".toList, "Required".toList, "Default".toList,
        "Description".toList] :: rule 5 :: c.properties.map propertyRow) ++
    [[], "## Exports".toList, []] ++ orNone (c.exports.map exportLine) ++
    [[], "## Dependencies".toList, []] ++
    orNone (c.dependencies.map fun module => "- ".toList ++ code module) ++ [[]]

/-- The table of a story's args. -/
def argsTable (args : Option (Entries Value)) : Except DigitError (List Text) :=
  match args with
  | none | some [] => .ok []
  | some entries => do
    let rows ← entries.mapM fun (key, value) => do
      return row [code key, cell (← Display.ofJson value.node.payload)]
    return [row ["Arg".toList, "Value".toList], rule 2] ++ rows ++ [[]]

def story (s : Story) : Except DigitError (List Text) := do
  let args ← argsTable s.args
  return ["## ".toList ++ s.name, []] ++ paragraph s.description ++ args ++
    ["```tsx".toList, s.source, "```".toList, []]

def stories (f : StoryFile) : Except DigitError Text := do
  let listing ← f.settings.stories.mapM story
  let decorators := f.settings.decorators.getD []
  let title := if f.settings.title = [] then f.component else f.settings.title
  let total ← Number.writeInt f.total
  return page <|
    ["# ".toList ++ title ++ " stories".toList, [],
      "Component: ".toList ++ code f.settings.component,
      "Stories: ".toList ++ total ++ (if f.isInteractive then " (interactive)".toList else []),
      []] ++ listing.flatten ++
    (if decorators = [] then []
      else ["## Decorators".toList, []] ++
        decorators.map (fun d => "- ".toList ++ code (cell d))) ++ [[]]

def sectionLines (s : Section) : List Text :=
  [List.replicate (s.level + 1).toNat '#' ++ ' ' :: s.title, []] ++ paragraph (some s.content)

def document (d : Document) : Text :=
  page <|
    ["# ".toList ++ d.title, []] ++
    (if d.metadata = [] then []
      else d.metadata.map (fun (key, value) =>
        "- **".toList ++ key ++ "**: ".toList ++ value) ++ [[]]) ++
    d.sections.flatMap sectionLines ++
    (if d.components = [] then []
      else ["Referenced components: ".toList ++ join ", ".toList d.components]) ++ [[]]

/-- A headed list, if it has items. -/
def headedList (title : Text) (items : List Text) : List Text :=
  if items = [] then []
  else [[], "## ".toList ++ title, []] ++ items.map ("- ".toList ++ ·)

def summary (s : DocumentSummary) : Except DigitError Text := do
  let sections ← Number.writeInt s.facts.sections
  let examples ← Number.writeInt s.facts.examples
  return page <|
    ["# ".toList ++ s.facts.title, []] ++ paragraph s.facts.description ++
    ["- Sections: ".toList ++ sections, "- Examples: ".toList ++ examples,
      "- Props reference: ".toList ++ yesNo s.facts.hasProperties,
      "- Usage guidelines: ".toList ++ yesNo s.facts.hasUsage,
      "- Accessibility notes: ".toList ++ yesNo s.facts.hasAccessibility] ++
    headedList "Usage".toList s.usagePatterns ++
    headedList "Accessibility".toList s.accessibilityGuidelines ++ [[]]

/-- The dependencies of a node behind a colon, if it has any. -/
def dependencyList (t : DependencyTree) : Text :=
  if t.dependencies = [] then [] else ": ".toList ++ join ", ".toList t.dependencies

/-- What the outline has for each node below the root. -/
def dependencyEntry : List Outline.Part :=
  [.data ['\n'], .hole fun s => (List.replicate (s.depth - 1) [' ', ' ']).flatten,
    .data "- **".toList, .hole fun s => s.node.name, .data "**".toList,
    .hole fun s => dependencyList s.node, .data ['\n'],
    .block (.when fun s => !s.node.children.isEmpty) .plain .stripping
      [.data ['\n'], .hole fun s => s.again, .data ['\n']],
    .data ['\n']]

def dependencyTemplate : List Outline.Part :=
  [.data "# ".toList, .hole fun s => s.record.name, .data " dependencies\n\nExternal: ".toList,
    .hole fun s => listed s.record.dependencies, .data "\nSibling components: ".toList,
    .hole fun s => listed s.record.components, .data ['\n'],
    .block (.when fun s => !s.record.children.isEmpty) .plain .plain
      [.data ['\n', '\n'],
        .block (.each fun s => s.record.children) .plain .plain dependencyEntry,
        .data ['\n']],
    .data ['\n']]

def dependencies (t : DependencyTree) : Text :=
  strip (Outline.render dependencyTemplate t) ++ ['\n']

def themeFacts (f : Theme.Facts) : Except DigitError Text := do
  let tokens ← Number.writeInt f.tokens
  return page
    ["# ".toList ++ f.name, [], row ["Mode".toList, "Version".toList, "Tokens".toList], rule 3,
      row [f.mode, f.version, tokens], [], "Categories: ".toList ++ listed f.categories, []]

/-- The page of a record whose kind has one of its own. -/
def ofRecord? : Record → Option (Except DigitError Text)
  | .component c => some (.ok (component c))
  | .stories f => some (stories f)
  | .document d => some (.ok (document d))
  | .summary s => some (summary s)
  | .themeFacts f => some (themeFacts f)
  | .dependencies t => some (.ok (dependencies t))
  | .theme _ | .plain _ => none

end ComponentCatalog.Markdown
