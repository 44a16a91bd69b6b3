import ComponentCatalog.Source.Error
import ComponentCatalog.Log

/-!
Sources of component files: they give the text of a file and the names of the directories in a
directory, and may change their state and report while they do.
-/
namespace ComponentCatalog

/-- A computation that reads from a source with state `σ`. What it did to the state and what it
reported stay when it fails. -/
abbrev Reading (σ : Type) := ExceptT Failure (StateM (Session σ))

namespace Reading

def report (level : Log.Level) (area : String) (message : Text) : Reading σ Unit :=
  modify (Session.report level area message)

def fail (e : SourceError) : Reading σ α := throw (.source e)

def run (r : Reading σ α) (s : Session σ) : Except Failure α × Session σ := StateT.run (ExceptT.run r) s

/-- The value, or the failure as a value; other failures than those of the source pass. -/
def attempt (r : Reading σ α) : Reading σ (Except SourceError α) :=
  tryCatch (Except.ok <$> r) fun
    | .source e => return .error e
    | other => throw other

/-- The value, or nothing where what was asked for is absent. -/
def optional (r : Reading σ α) : Reading σ (Option α) := do
  match ← attempt r with
  | .ok a => return some a
  | .error e => if e.isAbsence then return none else fail e

/-- Reads from a source that is a part of the state. -/
def within (part : τ → σ) (update : τ → σ → τ) (r : Reading σ α) : Reading τ α := fun s =>
  let (result, t) := r ⟨part s.state, s.log⟩
  (result, ⟨update s.state t.state, t.log⟩)

/-- The value of a computation that does not touch the source. -/
def ofDigits (r : Except DigitError α) : Reading σ α := r.mapError Failure.digits

end Reading

structure Provider (σ : Type) where
  fetchText : Text → Reading σ Text
  /-- The names of the directories directly under a path. -/
  listDirectory : Text → Reading σ (List Text)
  /-- No more than so many files can be read. -/
  extent : σ → Nat

/-- A source that is a part of a larger state. -/
def Provider.within (p : Provider σ) (part : τ → σ) (update : τ → σ → τ) : Provider τ where
  fetchText path := Reading.within part update (p.fetchText path)
  listDirectory path := Reading.within part update (p.listDirectory path)
  extent t := p.extent (part t)

end ComponentCatalog
