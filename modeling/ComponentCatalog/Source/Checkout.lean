import ComponentCatalog.Source.FileSystem
import ComponentCatalog.Source.Provider

/-!
A local checkout as a source: the files at or below a root place. A path may go up and come back,
but not end outside the root.
-/
namespace ComponentCatalog

namespace Checkout

/-- The place that a path names, unless it lies outside the root. -/
def locate (root : Place) (path : Text) : Except Failure Place :=
  let place := root.follow (normalizePath path)
  if '\x00' ∈ path then .error .nullInPath
  else if root.isWithin place then .ok place
  else .error (.source (.outsideRoot path))

def fetchText (root : Place) (path : Text) : Reading FileSystem Text := do
  let place ← locate root path
  let fs := (← get).state
  match fs.file? place with
  | none => Reading.fail (.noFile path)
  | some octets =>
    Reading.report .debug "sources.local" ("Reading ".toList ++ place.text)
    match fs.refusal? place with
    | some reason => Reading.fail (.unreadable path reason)
    | none => return FileSystem.textOf octets

def listDirectory (root : Place) (path : Text) : Reading FileSystem (List Text) := do
  let place ← locate root path
  match (← get).state.directories? place with
  | none => Reading.fail (.noDirectory path)
  | some names => return Text.sort names

end Checkout

/-- The checkout at a place as a source. -/
def Provider.checkout (root : Place) : Provider FileSystem where
  fetchText := Checkout.fetchText root
  listDirectory := Checkout.listDirectory root
  extent fs := fs.fileCount

end ComponentCatalog
