import ComponentCatalog.Source.Cache
import ComponentCatalog.Source.Provider

/-!
A source behind a cache: what was read before is answered from memory while it lives. Files and
listings are kept apart, in a cache each; keys that begin with the kind would do the same in one.
-/
namespace ComponentCatalog

structure Cached (τ σ : Type) where
  now : τ
  files : Cache τ Text
  directories : Cache τ (List Text)
  /-- The lifetime of files, where it is not the cache's own. -/
  fileLifetime : Option τ
  directoryLifetime : Option τ
  inner : σ

namespace Cached

variable {τ σ : Type}

/-- A source with state `inner` behind an empty cache. -/
def start (now lifetime : τ) (fileLifetime directoryLifetime : Option τ) (inner : σ) : Cached τ σ :=
  ⟨now, .empty lifetime, .empty lifetime, fileLifetime, directoryLifetime, inner⟩

def size (c : Cached τ σ) : Nat := c.files.size + c.directories.size

/-- Drops the files and listings whose paths begin with `lead`; tells how many. -/
def invalidate (c : Cached τ σ) (lead : Text) : Nat × Cached τ σ :=
  let (files, kept) := c.files.deleteUnder lead
  let (directories, listings) := c.directories.deleteUnder lead
  (files + directories, { c with files := kept, directories := listings })

def withInner (c : Cached τ σ) (inner : σ) : Cached τ σ := { c with inner }

variable [Zero τ] [Sub τ] [LT τ] [DecidableLT τ]

/-- The value that one of the two caches has for a path, or the one read from the source, which that
cache then keeps. -/
def through (kind : String) (cache : Cached τ σ → Cache τ α)
    (withCache : Cached τ σ → Cache τ α → Cached τ σ) (lifetime : Cached τ σ → Option τ)
    (path : Text) (read : Reading σ α) : Reading (Cached τ σ) α := do
  let c := (← get).state
  let (found, kept) := (cache c).lookup c.now path
  modify fun s => { s with state := withCache s.state kept }
  match found with
  | some value => return value
  | none =>
    Reading.report .debug "sources.cache" ("Cache miss for ".toList ++ kind.toList ++ ':' :: path)
    let value ← Reading.within Cached.inner withInner read
    modify fun s =>
      let c := s.state
      { s with state := withCache c ((cache c).store c.now path value (lifetime c)) }
    return value

end Cached

/-- The source behind a cache. -/
def Provider.cached [Zero τ] [Sub τ] [LT τ] [DecidableLT τ] (p : Provider σ) :
    Provider (Cached τ σ) where
  fetchText path :=
    Cached.through "file" Cached.files (fun c files => { c with files }) Cached.fileLifetime path
      (p.fetchText path)
  listDirectory path :=
    Cached.through "dir" Cached.directories (fun c directories => { c with directories })
      Cached.directoryLifetime path (p.listDirectory path)
  extent c := p.extent c.inner + c.files.size

end ComponentCatalog
