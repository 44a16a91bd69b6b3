import ComponentCatalog.Json.Reader
import ComponentCatalog.Library.Dependencies
import ComponentCatalog.Library.Search
import ComponentCatalog.Service.Route

/-!
The service: answers requests from a library, which the first request that asks it opens. An absence
is answered with status 404 and another failure of the source with 502; what fails otherwise is
answered with status 500, without a reason.
-/
namespace ComponentCatalog

namespace Service

open Text

structure Request where
  method : Text
  address : Address
  /-- The body, if its type is declared to be JSON. -/
  json : Option Text

/-- The method in capitals. -/
def Request.verb (r : Request) : Text := r.method.map Char.toUpper

structure Response where
  status : Nat
  contentType : Text
  body : Text
  deriving DecidableEq, Repr

namespace Response

/-- What failed for no reason of the request. -/
def failure : Response :=
  ⟨500, "text/plain; charset=utf-8".toList, "Internal Server Error".toList⟩

/-- A JSON document. -/
def json (style : Json.Style) (status : Nat) (value : Json) : Response :=
  match Json.write style value with
  | .ok body => ⟨status, "application/json".toList, body⟩
  | .error _ => failure

def page (s : Text) : Response := ⟨200, "text/markdown; charset=utf-8".toList, s⟩

/-- A refusal with its reason. -/
def refusal (status : Nat) (reason : Text) : Response :=
  json .free status (.object [("detail".toList, .text reason)])

def notFound : Response := refusal 404 "Not Found".toList

def methodNotAllowed : Response := refusal 405 "Method Not Allowed".toList

/-- A parameter or the body is missing or has no meaning. -/
def unprocessable : Response := ⟨422, "application/json".toList, []⟩

end Response

/-- An object of a declared shape. -/
def declared (members : List (String × Json)) : Response :=
  .json .declared 200 (.object (members.map fun (name, value) => (name.toList, value)))

/-- A record in a format. -/
def presented (presenter : Presenter) (record : Record) : Format → Except DigitError Response
  | .json => .ok (.json .free 200 record.node.payload)
  | .markdown => (presenter.renderMarkdown record []).map .page

variable {σ : Type}

/-- The answer to a query. -/
def answer (lib : Library σ) (presenter : Presenter) (format : Format) :
    Query → Reading σ Response
  | .components => do
    return declared [("components", .list ((← lib.components).map .text))]
  | .source name => do
    return declared [("name", .text name), ("source", .text (← lib.file name .source))]
  | .tests name => do
    return declared [("name", .text name), ("source", .text (← lib.file name .tests))]
  | .component name => do present (.component (← lib.component name))
  | .stories name => do present (.stories (← lib.stories name))
  | .document name => do present (.document (← lib.document name))
  | .summary name => do present (.summary (← lib.summary name))
  | .dependencies name deep => do present (.dependencies (← lib.dependencies name deep))
  | .theme category => do return .json .declared 200 (← lib.theme category).node.payload
  | .themeFacts => do present (.themeFacts (← lib.themeFacts))
  | .search query described => do
    let results ← lib.search query described
    return declared [("query", .text query),
      ("results", .list (results.map fun r => r.node.payload))]
where
  present (record : Record) : Reading σ Response :=
    Reading.ofDigits (presented presenter record format)

/-- The answer, or what a failure is answered with. -/
def settled (r : Reading σ Response) : Reading σ Response :=
  tryCatch r fun
    | .source e => do
      if e.isAbsence then return .refusal 404 e.message
      Reading.report .warning "service" ("Upstream source failure: ".toList ++ e.message)
      return .refusal 502 e.message
    | _ => return .failure

/-- The text to extract from and its name, from the members of a body. -/
def extractInput? (body : Json) : Option (Text × Text) := do
  let text ← (← body.member? "text".toList).text?
  match body.member? "name".toList with
  | none => return (text, [])
  | some name => return (text, ← name.text?)

/-- Reads the text of a body into the record of a kind. -/
def extracted (kind : Text) (json : Option Text) : Response :=
  match json with
  | none | some [] => .unprocessable
  | some body =>
    match Json.read ((after? ['\uFEFF'] body).getD body) with
    | .error .malformed => .unprocessable
    | .error (.digits _) => .refusal 400 "There was an error parsing the body".toList
    | .ok body =>
      match extractInput? body with
      | none => .unprocessable
      | some (text, name) =>
        match SourceKind.ofName? kind with
        | none => .refusal 400 (SourceKind.unknownMessage kind)
        | some kind =>
          match extract kind name text with
          | .ok record => .json .declared 200 record.node.payload
          | .error _ => .failure

end Service

structure Service (σ : Type) where
  library : Library σ
  presenter : Presenter
  /-- Reported when the library is opened. -/
  notices : List Log.Entry

namespace Service

variable {σ : Type}

/-- The source that a service reads, and whether its library was opened. -/
structure State (σ : Type) where
  source : σ
  isOpen : Bool

/-- The answer along a route. -/
def follow (service : Service σ) (request : Request) (route : Route) : Reading σ Response :=
  if request.verb ≠ route.method then return .methodNotAllowed
  else match route with
    | .health => return declared [("status", .text "ok".toList)]
    | .extract kind => return extracted kind request.json
    | route =>
      match route.query? request.address with
      | none => return .unprocessable
      | some (query, format) => settled (answer service.library service.presenter format query)

/-- The full response to a request: the response, what was reported, and the state after it. -/
def respondFully (service : Service σ) (request : Request) (state : State σ) :
    Response × List Log.Entry × State σ :=
  match Route.ofPath? request.address.path with
  | none => (.notFound, [], state)
  | some route =>
    let asks := route.usesLibrary && request.verb == route.method
    let notices := if asks && !state.isOpen then service.notices else []
    let (result, s) := (service.follow request route).run ⟨state.source, notices⟩
    (result.toOption.getD .failure, s.log, ⟨s.state, state.isOpen || asks⟩)

/-- Answers a request; a request for the head alone is answered without a body. -/
def respond (service : Service σ) (request : Request) (state : State σ) :
    Response × List Log.Entry × State σ :=
  let (response, log, state) := service.respondFully request state
  if request.verb = "HEAD".toList then ({ response with body := [] }, log, state)
  else (response, log, state)

end Service

end ComponentCatalog
