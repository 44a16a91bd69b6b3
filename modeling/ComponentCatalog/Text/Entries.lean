import ComponentCatalog.Text.Basic

/-!
Ordered entries: values by key, each key once, in the order in which the keys were first set.
-/
namespace ComponentCatalog

/-- Entries by key in the order in which the keys were first set. -/
abbrev Entries (α : Type) := List (Text × α)

namespace Entries

/-- A key that is present keeps its place and takes the new value. -/
def set (key : Text) (value : α) : Entries α → Entries α
  | [] => [(key, value)]
  | (k, v) :: rest => if k = key then (k, value) :: rest else (k, v) :: set key value rest

def get? (key : Text) (entries : Entries α) : Option α := List.lookup key entries

/-- The entries without the one under `key`. -/
def erase (key : Text) (entries : Entries α) : Entries α := entries.filter fun (k, _) => k ≠ key

/-- Sets every pair in turn. -/
def setAll (entries : Entries α) (pairs : List (Text × α)) : Entries α :=
  pairs.foldl (fun entries (key, value) => set key value entries) entries

def ofPairs (pairs : List (Text × α)) : Entries α := setAll [] pairs

end Entries

end ComponentCatalog
