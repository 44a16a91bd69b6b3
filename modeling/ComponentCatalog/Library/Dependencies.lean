import ComponentCatalog.Library.Basic

/-!
What a component imports. The deep form follows the imports of sibling components: a component is
expanded where it is first met, and one whose file is absent is left out there.
-/
namespace ComponentCatalog.Library

variable {σ : Type} (lib : Library σ)

/-- The imports of a component with the given source. -/
def importsOf (name source : Text) (children : List DependencyTree) : DependencyTree :=
  .node name (Component.dependenciesIn source) (Component.siblingsIn source) children

/-- The imports of a component and of the siblings that were not visited before, and all that are
visited then. -/
def expand : (fuel : Nat) → (name source : Text) → (visited : List Text) →
    Reading σ (DependencyTree × List Text)
  | 0, name, source, visited => return (importsOf name source [], visited)
  | fuel + 1, name, source, visited => do
    let (children, visited) ← (Component.siblingsIn source).foldlM
      (fun (children, visited) sibling => do
        if visited.contains sibling then return (children ++ [DependencyTree.leaf sibling], visited)
        let visited := sibling :: visited
        match ← Reading.optional (lib.file sibling .source) with
        | none =>
          Reading.report .debug "library"
            ("Skipping unresolved sibling component ".toList ++ sibling)
          return (children, visited)
        | some code =>
          let (child, visited) ← expand fuel sibling code visited
          return (children ++ [child], visited))
      ([], visited)
    return (importsOf name source children, visited)

/-- What a component imports; with `deep`, also what its siblings do. No more components than the
source has files can be expanded inside one another. -/
def dependencies (name : Text) (deep : Bool) : Reading σ DependencyTree := do
  let source ← lib.file name .source
  if deep then
    let bound := lib.provider.extent (← get).state
    return (← lib.expand (bound + 2) name source [name]).1
  else return importsOf name source []

end ComponentCatalog.Library
