import ComponentCatalog.Library.Basic
import ComponentCatalog.Text.Case
import ComponentCatalog.Text.Entries

/-!
Finding components by name and by description. Components that do not load are reported and left
out.
-/
namespace ComponentCatalog

structure SearchResult where
  name : Text
  description : Option Text
  deriving DecidableEq, Repr

def SearchResult.node (r : SearchResult) : Node :=
  .recordOf "SearchResult" [("name", .text r.name), ("description", .optional .text r.description)]

namespace Library

open Text

variable {σ : Type} (lib : Library σ)

/-- The components of the given names that load, each once. -/
def fetchMany (names : List Text) : Reading σ (Entries Component) := do
  let names := distinct names
  if names ≠ [] ∧ lib.workers ≤ 0 then throw .noWorkers
  let results ← names.mapM fun name => return (name, ← Reading.attempt (lib.component name))
  results.filterMapM fun (name, result) => do
    match result with
    | .ok component => return some (name, component)
    | .error e =>
      Reading.report .warning "library"
        ("Failed to load component ".toList ++ name ++ ": ".toList ++ e.message)
      return none

/-- The components whose names contain the query, in any letter case; with `described`, also those
whose descriptions do. -/
def search (query : Text) (described : Bool) : Reading σ (List SearchResult) := do
  let needle := lower (strip query)
  let names ← lib.components
  if !described then
    return (names.filter fun name => contains needle (lower name)).map fun name => ⟨name, none⟩
  let loaded ← lib.fetchMany names
  let results := names.map fun name =>
    SearchResult.mk name ((Entries.get? name loaded).bind Component.description)
  return results.filter fun r =>
    contains needle (lower r.name) ||
      r.description.any fun d => d ≠ [] && contains needle (lower d)

end Library

end ComponentCatalog
