import ComponentCatalog.Text.Basic

/-!
Diagnostics: what the parts of the catalogue report while they work, each line under the name of the
area that reports it.
-/
namespace ComponentCatalog

namespace Log

inductive Level where
  | debug | info | warning | error | critical
  deriving DecidableEq, Repr

def Level.rank : Level → Nat
  | .debug => 10
  | .info => 20
  | .warning => 30
  | .error => 40
  | .critical => 50

def Level.name : Level → Text
  | .debug => "DEBUG".toList
  | .info => "INFO".toList
  | .warning => "WARNING".toList
  | .error => "ERROR".toList
  | .critical => "CRITICAL".toList

structure Entry where
  level : Level
  /-- The reporting part; empty for the catalogue as a whole. -/
  area : Text
  message : Text
  deriving DecidableEq, Repr

end Log

/-- A state and the diagnostics reported so far. -/
structure Session (σ : Type) where
  state : σ
  log : List Log.Entry

namespace Session

def report (level : Log.Level) (area : String) (message : Text) (s : Session σ) : Session σ :=
  { s with log := s.log ++ [⟨level, area.toList, message⟩] }

end Session

end ComponentCatalog
