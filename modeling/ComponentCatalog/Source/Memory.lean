import ComponentCatalog.Source.Provider
import ComponentCatalog.Text.Entries

/-!
A source held in memory: finitely many files and listings, some of them broken, and a record of what
was asked for. Paths are compared as they are.
-/
namespace ComponentCatalog

namespace Memory

/-- What a source in memory was asked for. -/
inductive Call where
  | file (path : Text)
  | directory (path : Text)
  deriving DecidableEq, Repr

end Memory

structure Memory where
  files : Entries Text
  directories : Entries (List Text)
  /-- The paths that fail, with their failures. -/
  broken : Entries Text
  /-- What was asked for, first to last. -/
  calls : List Memory.Call

namespace Memory

def put (m : Memory) (path text : Text) : Memory := { m with files := Entries.set path text m.files }

def remove (m : Memory) (path : Text) : Memory := { m with files := Entries.erase path m.files }

def breakPath (m : Memory) (path message : Text) : Memory :=
  { m with broken := Entries.set path message m.broken }

def repair (m : Memory) (path : Text) : Memory :=
  { m with broken := Entries.erase path m.broken }

/-- The text of a file, or why there is none. -/
def file (m : Memory) (path : Text) : Except SourceError Text :=
  match Entries.get? path m.broken, Entries.get? path m.files with
  | some message, _ => .error (.broken message)
  | none, some text => .ok text
  | none, none => .error (.absent ("No such file: ".toList ++ path))

/-- The names in a directory, or why there are none. -/
def directory (m : Memory) (path : Text) : Except SourceError (List Text) :=
  match Entries.get? path m.broken, Entries.get? path m.directories with
  | some message, _ => .error (.broken message)
  | none, some names => .ok names
  | none, none => .error (.absent ("No such dir: ".toList ++ path))

/-- Asks for something, and puts the call on record. -/
def ask (call : Call) (answer : Memory → Except SourceError α) : Reading Memory α := do
  let m := (← get).state
  modify fun s => { s with state := { s.state with calls := s.state.calls ++ [call] } }
  match answer m with
  | .ok a => return a
  | .error e => Reading.fail e

end Memory

/-- The source in memory. -/
def Provider.memory : Provider Memory where
  fetchText path := Memory.ask (.file path) fun m => m.file path
  listDirectory path := Memory.ask (.directory path) fun m => m.directory path
  extent m := m.files.length

end ComponentCatalog
