import ComponentCatalog.Library.Layout
import ComponentCatalog.Node
import ComponentCatalog.Source.Path

/-!
The configuration: where component files come from, how long they are kept, where the service
listens and where page templates lie.
-/
namespace ComponentCatalog

structure SourceConfig where
  /-- The local checkout that is read instead of the repository. -/
  checkout : Option Place := none
  owner : Text := "grafana".toList
  repository : Text := "grafana".toList
  branch : Text := "main".toList
  componentsPath : Text := "packages/grafana-ui/src/components".toList
  themesPath : Text := "packages/grafana-data/src/themes".toList
  themeFiles : List Text :=
    ["createColors.ts".toList, "createTypography.ts".toList, "createSpacing.ts".toList,
      "createShadows.ts".toList, "createShape.ts".toList, "zIndex.ts".toList,
      "breakpoints.ts".toList]
  /-- The seconds that a request may take. -/
  timeout : Float := 10.0
  token : Option Text := none

def SourceConfig.layout (s : SourceConfig) : Layout :=
  ⟨s.componentsPath, s.themesPath, s.themeFiles⟩

/-- How long what was read is kept, in seconds; for ever if zero. -/
structure CacheConfig where
  isEnabled : Bool := true
  lifetime : Float := 3600.0
  fileLifetime : Float := 43200.0

structure ServiceConfig where
  host : Text := "127.0.0.1".toList
  port : Int := 8000
  deriving DecidableEq, Repr

structure Config where
  /-- The directory of the configuration file. -/
  root : Place
  source : SourceConfig := {}
  cache : CacheConfig := {}
  service : ServiceConfig := {}
  /-- The path of the directory with page templates. -/
  templates : Option Text := none

namespace Config

def fileName : Text := ".uidocs.yml".toList

def node (c : Config) : Node :=
  let source := c.source
  let place (p : Place) : Node := .text p.text
  .recordOf "Config" [("root", place c.root),
    ("source", .recordOf "SourceConfig" [("local_path", .optional place source.checkout),
      ("owner", .text source.owner), ("repo", .text source.repository),
      ("branch", .text source.branch), ("components_path", .text source.componentsPath),
      ("themes_path", .text source.themesPath), ("theme_files", .texts source.themeFiles),
      ("request_timeout", .float source.timeout), ("token", .optional .text source.token)]),
    ("cache", .recordOf "CacheConfig" [("enabled", .bool c.cache.isEnabled),
      ("ttl_seconds", .float c.cache.lifetime),
      ("source_ttl_seconds", .float c.cache.fileLifetime)]),
    ("service", .recordOf "ServiceConfig" [("host", .text c.service.host),
      ("port", .int c.service.port)]),
    ("presenter", .recordOf "PresenterConfig" [("templates_dir", .optional .text c.templates)])]

end Config

/-- Why a configuration is refused. -/
inductive ConfigError where
  | timeoutNotPositive
  | negativeLifetime (key : Text)
  | noMapping
  | malformed (file : Text)
  deriving DecidableEq, Repr

def ConfigError.message : ConfigError → Text
  | .timeoutNotPositive => "source.request_timeout must be positive".toList
  | .negativeLifetime key => "cache.".toList ++ key ++ " must not be negative".toList
  | .noMapping => Config.fileName ++ " must contain a mapping at the root".toList
  | .malformed file => "Failed to parse ".toList ++ file

end ComponentCatalog
