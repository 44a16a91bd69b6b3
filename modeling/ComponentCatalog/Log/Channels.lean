import ComponentCatalog.Display
import ComponentCatalog.Log
import ComponentCatalog.Source.FileSystem

/-!
Where diagnostics go: to the console, and to a file if one is named. Until the channels are opened
the console shows the bare messages of warnings and worse.
-/
namespace ComponentCatalog.Log

inductive Channels where
  | unopened
  | opened (isVerbose : Bool) (file : Option Place)
  deriving DecidableEq, Repr

def programName : Text := "uidocs".toList

namespace Entry

/-- The full name of the reporting part. -/
def source (e : Entry) : Text :=
  if e.area = [] then programName else programName ++ '.' :: e.area

/-- The line of a log file, without its time. -/
def fileLine (e : Entry) : Text :=
  e.level.name ++ ' ' :: e.source ++ ": ".toList ++ e.message ++ ['\n']

end Entry

namespace Channels

/-- The level from which on entries are shown. -/
def threshold : Channels → Level
  | .unopened => .warning
  | .opened true _ => .debug
  | .opened false _ => .info

def shows (channels : Channels) (e : Entry) : Bool := channels.threshold.rank ≤ e.level.rank

/-- The line that the console shows for an entry. -/
def consoleLine (channels : Channels) (e : Entry) : Text :=
  let lead := '[' :: programName ++ "] ".toList ++ e.level.name ++ [' ']
  match channels with
  | .unopened => e.message ++ ['\n']
  | .opened false _ => lead ++ e.message ++ ['\n']
  | .opened true _ =>
    lead ++ (if e.area = [] then programName else e.area) ++ ": ".toList ++ e.message ++ ['\n']

/-- What the console shows. -/
def console (channels : Channels) (log : List Entry) : Text :=
  (log.filter channels.shows).flatMap channels.consoleLine

/-- The file system after the entries were added to the log file, if there is one. -/
def record (channels : Channels) (log : List Entry) (fs : FileSystem) : FileSystem :=
  match channels with
  | .opened _ (some file) =>
    fs.withFile file ((fs.file? file).getD [] ++
      Text.Utf8.encode ((log.filter channels.shows).flatMap Entry.fileLine))
  | _ => fs

/-- How many channels are open. -/
def count : Channels → Nat
  | .unopened => 0
  | .opened _ none => 1
  | .opened _ (some _) => 2

end Channels

/-- Why a log file was not opened. -/
inductive FileError where
  /-- The directory of the log file is to be where there is a file. -/
  | parentIsFile (path : Text)
  /-- The way to that directory leads through a file. -/
  | throughFile (path : Text)
  | isDirectory (place : Place)
  | nullInPath
  deriving DecidableEq, Repr

def FileError.message : FileError → Text
  | .parentIsFile path => "[Errno 17] File exists: ".toList ++ Display.quoted path
  | .throughFile path => "[Errno 20] Not a directory: ".toList ++ Display.quoted path
  | .isDirectory place => "[Errno 21] Is a directory: ".toList ++ Display.quoted place.text
  | .nullInPath => "embedded null byte".toList

/-- Makes a directory and those on the way to it: enters segment after segment from a place. -/
def makeDirectory (path : Text) (fs : FileSystem) :
    Place → List Text → Except FileError FileSystem
  | place, [] =>
    if fs.isFile place then .error (.parentIsFile path) else .ok (fs.withDirectory place)
  | place, segment :: rest =>
    if fs.isFile place then .error (.throughFile path)
    else makeDirectory path (fs.withDirectory place) (place.enter segment) rest

/-- Opens a log file named relative to a directory, and makes the directories on the way to it. -/
def openFile (fs : FileSystem) (directory : Place) (path : Text) :
    Except FileError (Place × FileSystem) := do
  if '\x00' ∈ path then .error .nullInPath
  let start := if Text.startsWith ['/'] path then [] else directory
  let fs ← makeDirectory (parentPath path) fs start (segments path).dropLast
  let file := directory.follow path
  if fs.isDirectory file then .error (.isDirectory file)
  return (file, fs.withFile file ((fs.file? file).getD []))

/-- Opens the channels, with a log file if a path is given. When the file does not open, the console
does all the same. -/
def openChannels (fs : FileSystem) (directory : Place) (isVerbose : Bool) (path? : Option Text) :
    Option FileError × Channels × FileSystem :=
  match path? with
  | none => (none, .opened isVerbose none, fs)
  | some path =>
    match openFile fs directory path with
    | .ok (file, fs) => (none, .opened isVerbose (some file), fs)
    | .error e => (some e, .opened isVerbose none, fs)

end ComponentCatalog.Log
