import ComponentCatalog.Present.Markdown
import ComponentCatalog.Json.Writer

/-!
Presenting records as JSON documents or as Markdown pages. Page templates given by file name come
before the built-in pages; a template is text with holes for the title and for fields of the record.
-/
namespace ComponentCatalog

open Text

inductive Format where
  | json | markdown
  deriving DecidableEq, Repr

def Format.ofName? (name : Text) : Option Format :=
  if name = "json".toList then some .json
  else if name = "markdown".toList then some .markdown
  else none

def Format.name : Format → Text
  | .json => "json".toList
  | .markdown => "markdown".toList

/-- The refusal of a format that is not known. -/
def Format.unknownMessage (name : Text) : Text := "Unsupported output format: ".toList ++ name

/-- The JSON document of a record, without a final line feed. -/
def jsonText (value : Node) : Except DigitError Text :=
  (Json.write .document value.payload).mapError fun _ => .writing

/-- The name of a kind in snake case: an underscore before a capital that a small letter follows. -/
def snakeFrom (isFirst : Bool) : Text → Text
  | [] => []
  | c :: rest =>
    let letter := c.toLower
    if !isFirst && c.isUpper && rest.head?.any Char.isLower then '_' :: letter :: snakeFrom false rest
    else letter :: snakeFrom false rest

/-- The file name of the template for a kind of record. -/
def templateName (kind : Text) : Text := snakeFrom true kind ++ ".md.j2".toList

def defaultTemplateName : Text := "default.md.j2".toList

namespace Template

/-- A field of a record or the value of a key; nothing where there is none. -/
def field (name : Text) (value : Node) : Except DigitError Text :=
  let found := match value with
    | .record _ fields => List.lookup name fields
    | .mapping entries => List.lookup name entries
    | _ => none
  match found with
  | none => .ok []
  | some value => Display.ofJson value.payload

/-- The value of a hole. -/
def hole (record : Node) (title expression : Text) : Except DigitError Text :=
  if expression = "title".toList then .ok title
  else match after? "record.".toList expression with
    | some name => field name record
    | none => if expression = "record".toList then Display.ofJson record.payload else .ok []

/-- The template with its holes filled. -/
def fill (record : Node) (title : Text) : (fuel : Nat) → Text → Except DigitError Text
  | 0, s => .ok s
  | fuel + 1, s =>
    match cut? ['\x7b', '\x7b'] s with
    | none => .ok s
    | some (head, rest) =>
      match cut? ['\x7d', '\x7d'] rest with
      | none => .ok s
      | some (expression, rest) => do
        let value ← hole record title (strip expression)
        return head ++ value ++ (← fill record title fuel rest)

end Template

structure Presenter where
  /-- The template in a file, by its name. -/
  template? : Text → Option Text

namespace Presenter

/-- The page of a record of no particular kind: its JSON document under the title. -/
def defaultPage (title : Text) (value : Node) : Except DigitError Text := do
  return Markdown.page ["# ".toList ++ title, [], "```json".toList, ← jsonText value,
    "```".toList, []]

/-- The Markdown page of a record: by the template for its kind, by its own page, by the default
template, or by the default page. An empty title means the name of the kind. -/
def renderMarkdown (presenter : Presenter) (record : Record) (title : Text) :
    Except DigitError Text :=
  let value := record.node
  let title := if title = [] then value.kindName else title
  let fromTemplate (template : Text) : Except DigitError Text := do
    let text := unifyLineEnds template
    return strip (← Template.fill value title text.length text) ++ ['\n']
  match presenter.template? (templateName value.kindName) with
  | some template => fromTemplate template
  | none =>
    match Markdown.ofRecord? record with
    | some page => page
    | none =>
      match presenter.template? defaultTemplateName with
      | some template => fromTemplate template
      | none => defaultPage title value

def render (presenter : Presenter) (record : Record) : Format → Except DigitError Text
  | .json => (jsonText record.node).map (· ++ ['\n'])
  | .markdown => presenter.renderMarkdown record []

end Presenter

end ComponentCatalog
