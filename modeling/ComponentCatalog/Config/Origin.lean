import ComponentCatalog.Config.Basic
import ComponentCatalog.Library.Basic
import ComponentCatalog.Source.Cached
import ComponentCatalog.Source.Checkout
import ComponentCatalog.Source.GitHub

/-!
The source that a configuration describes: a checkout or a repository, behind a cache if that is
enabled.
-/
namespace ComponentCatalog

/-- Where component files are read from. -/
inductive Origin where
  | checkout (root : Place)
  | repository (r : GitHub.Repository)

/-- All that sources read from. -/
structure World where
  files : FileSystem
  web : GitHub.Web

namespace World

def withFiles (w : World) (files : FileSystem) : World := { w with files }

def withWeb (w : World) (web : GitHub.Web) : World := { w with web }

end World

namespace Origin

def provider : Origin → Provider World
  | .checkout root => (Provider.checkout root).within World.files World.withFiles
  | .repository r => (Provider.gitHub r).within World.web World.withWeb

/-- What is reported when the source is chosen. -/
def notice : Origin → Log.Entry
  | .checkout root =>
    ⟨.debug, "sources".toList, "Using local checkout at ".toList ++ root.text⟩
  | .repository r =>
    ⟨.debug, "sources".toList,
      "Using GitHub ".toList ++ r.owner ++ '/' :: r.name ++ '@' :: r.branch⟩

end Origin

namespace Config

/-- A local checkout comes before the repository. -/
def origin (c : Config) : Origin :=
  match c.source.checkout with
  | some root => .checkout root
  | none => .repository ⟨c.source.owner, c.source.repository, c.source.branch, c.source.token⟩

/-- The empty cache of a configuration, in front of the world. -/
def cached (c : Config) (w : World) : Cached Float World :=
  .start 0.0 c.cache.lifetime (some c.cache.fileLifetime) none w

def provider (c : Config) : Provider (Cached Float World) :=
  if c.cache.isEnabled then c.origin.provider.cached
  else c.origin.provider.within Cached.inner Cached.withInner

def library (c : Config) : Library (Cached Float World) :=
  ⟨c.provider, c.source.layout, Library.defaultWorkers⟩

end Config

end ComponentCatalog
