import ComponentCatalog.Config.Basic
import ComponentCatalog.Config.Coercion
import ComponentCatalog.Source.FileSystem

/-!
Loading the configuration: the settings of the file, which is taken to be readable if it is there,
then those of the environment.
-/
namespace ComponentCatalog

/-- Why no configuration was loaded. -/
inductive LoadError where
  | rejected (e : ConfigError)
  | coercion (e : Config.CoercionError)
  /-- The file has a value that stands for nothing. -/
  | value (e : Yaml.Error)
  | notUtf8 (f : Text.Utf8.Fault)
  | isDirectory (path : Text)
  | nullInPath
  | noHome

/-- What is wrong with octets that are no text: one octet is named itself, several by their
place. -/
def encodingMessage (f : Text.Utf8.Fault) : Text :=
  let place :=
    match f.octets with
    | [b] => "byte 0x".toList ++ Display.hexDigits 2 b.toNat ++ " in position ".toList ++
        Number.natText f.offset
    | octets => "bytes in position ".toList ++ Number.natText f.offset ++
        '-' :: Number.natText (f.offset + octets.length - 1)
  "'utf-8' codec can't decode ".toList ++ place ++ ": ".toList ++ f.flaw.message

def LoadError.message : LoadError → Text
  | .rejected e => e.message
  | .coercion e => e.message
  | .value e => e.message
  | .notUtf8 f => encodingMessage f
  | .isDirectory path => "[Errno 21] Is a directory: ".toList ++ Display.quoted path
  | .nullInPath => "embedded null byte".toList
  | .noHome => "Could not determine home directory.".toList

/-- The home directories of users. -/
structure Homes where
  /-- That of the user who runs the program. -/
  own : Option Text
  /-- That of a user who is named. -/
  named : Text → Option Text

/-- A home alone stands for a system on which no user has a name. -/
instance : Coe (Option Text) Homes := ⟨fun own => ⟨own, fun _ => none⟩⟩

/-- What a program finds around it: the working directory, the home directories and the values of
its variables. -/
structure Environment where
  directory : Place
  homes : Homes
  values : Entries Text

namespace Environment

/-- The home directory behind a `~` with the name of a user, or with none. An empty one is the top,
and one that begins with a `~` again is none. -/
def home? (env : Environment) (name : Text) : Option Place :=
  match if name = [] then env.homes.own else env.homes.named name with
  | none | some ('~' :: _) => none
  | some [] => some []
  | some home => some (env.directory.follow home)

/-- The place that a path leads to from the working directory; a leading `~` is a home directory. -/
def locate (env : Environment) (path : Text) : Except LoadError Place :=
  if '\x00' ∈ path then .error .nullInPath
  else if Text.startsWith ['/'] path then .ok (env.directory.follow path)
  else match segments path with
    | ('~' :: name) :: rest =>
      match env.home? name with
      | some home => .ok (rest.foldl Place.enter home)
      | none => .error .noHome
    | _ => .ok (env.directory.follow path)

/-- The value of a variable that is set and not empty. -/
def lookup? (env : Environment) (name : String) : Option Text :=
  (Entries.get? name.toList env.values).filter (· ≠ [])

end Environment

namespace Config

def sourceOf (root : Place) (v : Yaml.Value) : Except LoadError SourceConfig := do
  let path? ← (asText (setting v "local_path")).mapError .coercion
  let checkout ← match path? with
    | none | some [] => pure none
    | some path => if '\x00' ∈ path then .error .nullInPath else pure (some (root.follow path))
  let standard : SourceConfig := {}
  let text (key : String) (absent : Text) : Except LoadError Text :=
    (textOr absent (setting v key)).mapError .coercion
  let owner ← text "owner" standard.owner
  let repository ← text "repo" standard.repository
  let branch ← text "branch" standard.branch
  let componentsPath ← text "components_path" standard.componentsPath
  let themesPath ← text "themes_path" standard.themesPath
  let names ← (asTexts (setting v "theme_files")).mapError .coercion
  let timeout ← match ← (asFloat (setting v "request_timeout")).mapError .coercion with
    | none => pure standard.timeout
    | some x => if x ≤ 0 then .error (.rejected .timeoutNotPositive) else pure x
  let token ← (asText (setting v "token")).mapError .coercion
  let themeFiles := if names = [] then standard.themeFiles else names
  return { checkout, owner, repository, branch, componentsPath, themesPath, themeFiles, timeout, token }

/-- A lifetime in seconds, which must not be negative. -/
def lifetimeOf (v : Yaml.Value) (key : String) (absent : Float) : Except LoadError Float := do
  match ← (asFloat (setting v key)).mapError LoadError.coercion with
  | none => return absent
  | some x =>
    if x < 0 then throw (.rejected (.negativeLifetime key.toList))
    return x

def cacheOf (v : Yaml.Value) : Except LoadError CacheConfig := do
  let standard : CacheConfig := {}
  let isEnabled := (asBool (setting v "enabled")).getD standard.isEnabled
  let lifetime ← lifetimeOf v "ttl_seconds" standard.lifetime
  let fileLifetime ← lifetimeOf v "source_ttl_seconds" standard.fileLifetime
  return { isEnabled, lifetime, fileLifetime }

def serviceOf (v : Yaml.Value) : Except LoadError ServiceConfig := do
  let standard : ServiceConfig := {}
  let host ← (textOr standard.host (setting v "host")).mapError .coercion
  return { host, port := (asInt (setting v "port")).getD standard.port }

def templatesOf (root : Place) (v : Yaml.Value) : Except LoadError (Option Text) := do
  match ← (asText (setting v "templates_dir")).mapError LoadError.coercion with
  | none | some [] => return none
  | some path => return some (root.join path)

/-- The configuration that the content of a file in the directory `root` gives. -/
def ofValue (root : Place) (content : Yaml.Value) : Except LoadError Config :=
  match content with
  | .null => .ok { root }
  | .mapping _ => do
    let source ← sourceOf root (setting content "source")
    let cache ← cacheOf (setting content "cache")
    let service ← serviceOf (setting content "service")
    let templates ← templatesOf root (setting content "presenter")
    return { root, source, cache, service, templates }
  | _ => .error (.rejected .noMapping)

/-- The configuration with what the environment sets: the first token that is, and a checkout. -/
def withEnvironment (c : Config) (env : Environment) : Except LoadError Config := do
  let token :=
    ((env.lookup? "GITHUB_PERSONAL_ACCESS_TOKEN").or (env.lookup? "GITHUB_TOKEN")).or
      c.source.token
  let checkout ← match env.lookup? "UIDOCS_LOCAL_PATH" with
    | none => pure c.source.checkout
    | some path => some <$> env.locate path
  return { c with source := { c.source with token, checkout } }

/-- The content of a configuration file; of a blank text, null. -/
def readText (name text : Text) : Except LoadError Yaml.Value :=
  if Text.strip text = [] then .ok .null
  else match Yaml.read text with
    | .ok v => .ok v
    | .error .malformed => .error (.rejected (.malformed name))
    | .error e => .error (.value e)

/-- The configuration of the file at a path, or of the file of the standard name in the directory
there. Without the file the standard settings hold. -/
def load (fs : FileSystem) (env : Environment) (path : Text) : Except LoadError Config := do
  let place ← env.locate path
  let file := if fs.isDirectory place then place ++ [fileName] else place
  let root := file.dropLast
  let content ← match fs.file? file with
    | some octets =>
      match Text.Utf8.fault? octets with
      | some f => .error (.notUtf8 f)
      | none =>
        readText (file.getLast?.getD []) (Text.unifyLineEnds (Text.Utf8.decodeLossy octets))
    | none => if fs.isDirectory file then .error (.isDirectory file.text) else pure .null
  (← ofValue root content).withEnvironment env

end Config

end ComponentCatalog
