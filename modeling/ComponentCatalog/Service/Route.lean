import ComponentCatalog.Library.Query
import ComponentCatalog.Present.Presenter
import ComponentCatalog.Service.Address

/-!
What the paths of the service lead to, and how the parameters of an address complete it.
-/
namespace ComponentCatalog.Service

open Text

inductive Route where
  | health
  | components
  | source (name : Text)
  | tests (name : Text)
  | component (name : Text)
  | stories (name : Text)
  | document (name : Text)
  | summary (name : Text)
  | dependencies (name : Text)
  | theme
  | themeFacts
  | search
  /-- Reads a text of a kind that the path names. -/
  | extract (kind : Text)
  deriving DecidableEq, Repr

namespace Route

/-- What a file of a component, or a view of it, is called in a path. -/
def ofView? (name view : Text) : Option Route :=
  match String.ofList view with
  | "source" => some (.source name)
  | "tests" => some (.tests name)
  | "metadata" => some (.component name)
  | "stories" => some (.stories name)
  | "docs" => some (.document name)
  | "dependencies" => some (.dependencies name)
  | _ => none

/-- The route of a path that ends in a fixed name. -/
def ofFixed? (path : Text) : Option Route :=
  match path.splitOn '/' with
  | [[], first] =>
    match String.ofList first with
    | "health" => some .health
    | "components" => some .components
    | "search" => some .search
    | _ => none
  | [[], first, second] =>
    match String.ofList first, String.ofList second with
    | "theme", "tokens" => some .theme
    | "theme", "metadata" => some .themeFacts
    | _, _ => none
  | [[], first, name, view] =>
    if first = "components".toList ∧ name ≠ [] then ofView? name view else none
  | [[], first, name, view, part] =>
    if first = "components".toList ∧ name ≠ [] ∧ view = "docs".toList ∧ part = "summary".toList then
      some (.summary name)
    else none
  | _ => none

/-- The route of a path that ends in the name of a kind of text. -/
def ofKind? (path : Text) : Option Route :=
  match path.splitOn '/' with
  | [[], first, kind] => if first = "extract".toList ∧ kind ≠ [] then some (.extract kind) else none
  | _ => none

/-- The path without one line feed at its end. -/
def withoutLineFeed (path : Text) : Text := if endsWith ['\n'] path then path.dropLast else path

def ofExact? (path : Text) : Option Route := (ofFixed? (withoutLineFeed path)).or (ofKind? path)

/-- The route of a path; slashes at its end do not count. -/
def ofPath? (path : Text) : Option Route :=
  (ofExact? path).or (if endsWith ['/'] path then ofExact? (dropEndWhile (· == '/') path) else none)

def method : Route → Text
  | .extract _ => "POST".toList
  | _ => "GET".toList

/-- The route asks the library. -/
def usesLibrary : Route → Bool
  | .health | .extract _ => false
  | _ => true

end Route

/-- The format that an address asks for; `none` for one that is not known. -/
def Address.format? (a : Address) : Option Format :=
  match a.value? "format" with
  | none => some .json
  | some name => Format.ofName? name

/-- A word for a truth value, in any letter case. -/
def truthValue? (s : Text) : Option Bool :=
  match String.ofList (s.map Char.toLower) with
  | "true" | "1" | "yes" | "on" | "t" | "y" => some true
  | "false" | "0" | "no" | "off" | "f" | "n" => some false
  | _ => none

/-- A parameter that is false where it is absent; `none` for a value that is no truth value. -/
def Address.flag? (a : Address) (name : String) : Option Bool :=
  match a.value? name with
  | none => some false
  | some s => truthValue? s

/-- What a route asks the library with the parameters of an address, and the format of the answer;
`none` where a parameter is missing or has no meaning. -/
def Route.query? (route : Route) (a : Address) : Option (Query × Format) :=
  let presented (query : Query) : Option (Query × Format) := a.format?.map fun f => (query, f)
  match route with
  | .health | .extract _ => none
  | .components => some (.components, .json)
  | .source name => some (.source name, .json)
  | .tests name => some (.tests name, .json)
  | .component name => presented (.component name)
  | .stories name => presented (.stories name)
  | .document name => presented (.document name)
  | .summary name => presented (.summary name)
  | .dependencies name => do presented (.dependencies name (← a.flag? "deep"))
  | .theme => some (.theme (a.value? "category"), .json)
  | .themeFacts => presented .themeFacts
  | .search => do return (.search (← a.value? "q") (← a.flag? "include_description"), .json)

end ComponentCatalog.Service
