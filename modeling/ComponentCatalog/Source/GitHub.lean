import ComponentCatalog.Source.Path
import ComponentCatalog.Source.Provider
import ComponentCatalog.Source.Url
import ComponentCatalog.Json.Reader
import ComponentCatalog.Display

/-!
A GitHub repository as a source: raw files, and directory listings of the contents interface.
-/
namespace ComponentCatalog

open Text

namespace GitHub

structure Repository where
  owner : Text
  name : Text
  branch : Text
  /-- Sent with every request unless absent or empty. -/
  token : Option Text

structure Request where
  url : Text
  headers : List (Text × Text)
  deriving DecidableEq, Repr

inductive Response where
  | body (octets : Utf8.Octets)
  | status (code : Int) (reason : Text)
  | unreachable (reason : Text)

/-- The web as one program sees it: what each request is answered, and the requests made so far. -/
structure Web where
  answer : Request → Response
  requests : List Request
  /-- No more than so many requests are answered with a file. -/
  extent : Nat

/-- The address of a file: the path is percent-encoded, and the branch stands as it is. -/
def fileUrl (r : Repository) (path : Text) : Text :=
  "https://raw.githubusercontent.com/".toList ++ r.owner ++ '/' :: r.name ++ '/' :: r.branch ++
    '/' :: Url.quote (normalizePath path)

/-- The address of a listing: the path and the branch are percent-encoded. -/
def listingUrl (r : Repository) (path : Text) : Text :=
  "https://api.github.com/repos/".toList ++ r.owner ++ '/' :: r.name ++ "/contents/".toList ++
    Url.quote (normalizePath path) ++ "?ref=".toList ++ Url.quote r.branch

def request (r : Repository) (url accept : Text) : Request :=
  let authorization := match r.token with
    | none | some [] => []
    | some token => [("Authorization".toList, "Bearer ".toList ++ token)]
  ⟨url, [("Accept".toList, accept), ("User-agent".toList, "uidocs/0.1.0".toList)] ++ authorization⟩

/-- The body that a request is answered with. A refused request is absence only with status 404. -/
def body (r : Repository) (url path accept : Text) : Reading Web Utf8.Octets := do
  Reading.report .debug "sources.github" ("GET ".toList ++ url)
  let request := request r url accept
  let web := (← get).state
  modify fun s => { s with state := { s.state with requests := s.state.requests ++ [request] } }
  match web.answer request with
  | .body octets => return octets
  | .unreachable reason => Reading.fail (.unreachable reason)
  | .status code reason =>
    if code = 404 then Reading.fail (.noRemoteFile path)
    else
      if code = 403 ∨ code = 429 then
        Reading.report .warning "sources.github"
          ("GitHub rate limit or permission error for ".toList ++ path)
      Reading.fail (.refused code reason)

def fetchText (r : Repository) (path : Text) : Reading Web Text := do
  return Utf8.decodeLossy (← body r (fileUrl r path) path "text/plain".toList)

/-- The name of a listed item, if the item is a directory. -/
def directoryName? (item : Json) : Option Json :=
  if item.member? "type".toList |>.bind Json.text? |>.any (· = "dir".toList) then
    item.member? "name".toList
  else none

/-- The names of the directories in a listing, sorted. -/
def directoryNames (path : Text) (octets : Utf8.Octets) : Except Failure (List Text) := do
  let some text := Utf8.decode? octets | .error (.source (.malformedListing path))
  match Json.read text with
  | .error .malformed => .error (.source (.malformedListing path))
  | .error (.digits count) => .error (.digits (.reading count))
  | .ok (.list items) =>
    let names ← ((items.filterMap directoryName?).mapM Display.ofJson).mapError Failure.digits
    return sort names
  | .ok _ => .error (.source (.notRemoteDirectory path))

def listDirectory (r : Repository) (path : Text) : Reading Web (List Text) := do
  let octets ← body r (listingUrl r path) path "application/vnd.github+json".toList
  directoryNames path octets

end GitHub

/-- A repository as a source. -/
def Provider.gitHub (r : GitHub.Repository) : Provider GitHub.Web where
  fetchText := GitHub.fetchText r
  listDirectory := GitHub.listDirectory r
  extent web := web.extent

end ComponentCatalog
