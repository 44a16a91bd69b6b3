import ComponentCatalog.Number.Integer

/-!
Why a source did not answer. Absence is kept apart from every other reason, since a reader may go on
without an absent file.
-/
namespace ComponentCatalog

inductive SourceError where
  | noFile (path : Text)
  | noDirectory (path : Text)
  | outsideRoot (path : Text)
  | noRemoteFile (path : Text)
  | notRemoteDirectory (path : Text)
  | noThemeFiles (path : Text)
  /-- Absence, reported in a source's own words. -/
  | absent (message : Text)
  /-- The file is there and cannot be read. -/
  | unreadable (path reason : Text)
  | malformedListing (path : Text)
  | refused (status : Int) (reason : Text)
  | unreachable (reason : Text)
  /-- Another failure, reported in a source's own words. -/
  | broken (message : Text)
  deriving DecidableEq, Repr

namespace SourceError

def isAbsence : SourceError → Bool
  | .noFile _ | .noDirectory _ | .outsideRoot _ | .noRemoteFile _ | .notRemoteDirectory _
  | .noThemeFiles _ | .absent _ => true
  | .unreadable _ _ | .malformedListing _ | .refused _ _ | .unreachable _ | .broken _ => false

def message : SourceError → Text
  | .noFile path => "File not found: ".toList ++ path
  | .noDirectory path => "Directory not found: ".toList ++ path
  | .outsideRoot path => "Path escapes the source root: ".toList ++ path
  | .noRemoteFile path => "Not found on GitHub: ".toList ++ path
  | .notRemoteDirectory path => "Not a directory: ".toList ++ path
  | .noThemeFiles path => "No theme files found under ".toList ++ path
  | .absent message => message
  | .unreadable path reason => "Failed to read ".toList ++ path ++ ": ".toList ++ reason
  | .malformedListing path => "GitHub returned invalid JSON for ".toList ++ path
  | .refused status reason =>
    "GitHub request failed with status ".toList ++ Number.intText status ++ ": ".toList ++ reason
  | .unreachable reason => "GitHub request failed: ".toList ++ reason
  | .broken message => message

end SourceError

/-- Why the catalogue did not answer. -/
inductive Failure where
  | source (e : SourceError)
  | digits (e : DigitError)
  /-- Several components were asked for with no worker to fetch them. -/
  | noWorkers
  /-- A path of the file system holds a null character. -/
  | nullInPath
  deriving DecidableEq, Repr

def Failure.message : Failure → Text
  | .source e => e.message
  | .digits e => e.message
  | .noWorkers => "max_workers must be greater than 0".toList
  | .nullInPath => "embedded null byte".toList

end ComponentCatalog
