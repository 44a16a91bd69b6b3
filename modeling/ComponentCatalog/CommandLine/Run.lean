import ComponentCatalog.CommandLine.Command
import ComponentCatalog.Config.Load
import ComponentCatalog.Config.Origin
import ComponentCatalog.Library.Dependencies
import ComponentCatalog.Library.Search
import ComponentCatalog.Log.Channels
import ComponentCatalog.Present.Directory

/-!
Running a command: the log is opened, the configuration loaded, and the answer of the library
presented. A run ends with a text to print, with a refusal, or ready to serve.
-/
namespace ComponentCatalog

open Text

namespace CommandLine

/-- A failure that no command explains. -/
inductive Fault where
  | logFile (e : Log.FileError)
  | load (e : LoadError)
  | reading (e : Failure)

def Fault.message : Fault → Text
  | .logFile e => e.message
  | .load e => e.message
  | .reading e => e.message

/-- How a run ends. -/
inductive Ending where
  | printed (output : Text)
  /-- With a message instead of output. -/
  | refused (message : Text)
  | serving (host : Text) (port : Int) (config : Config)
  | stopped (s : Stop)
  | failed (f : Fault)

structure Run where
  ending : Ending
  channels : Log.Channels
  log : List Log.Entry
  /-- The file system after the run, before the log is written. -/
  files : FileSystem

namespace Run

/-- What the console shows: the diagnostics, then the message of a refusal. -/
def console (r : Run) : Text :=
  r.channels.console r.log ++
    match r.ending with
    | .refused message => message
    | _ => []

/-- The file system after the run, with the log. -/
def finalFiles (r : Run) : FileSystem := r.channels.record r.log r.files

end Run

/-- A line of a list of search results. -/
def resultLine (r : SearchResult) : Text :=
  let description := match r.description with
    | none | some [] => []
    | some d => ": ".toList ++ d
  "- ".toList ++ r.name ++ description ++ ['\n']

variable {σ : Type}

/-- The text of a record in a format. -/
def present (presenter : Presenter) (format : Format) (record : Record) : Reading σ Text := do
  Reading.report .debug "cli"
    ("Rendering ".toList ++ record.node.kindName ++ " as ".toList ++ format.name)
  Reading.ofDigits (presenter.render record format)

/-- The output of a query. -/
def output (lib : Library σ) (presenter : Presenter) (format : Format) : Query → Reading σ Text
  | .components => do return (← lib.components).flatMap fun name => name ++ ['\n']
  | .source name => lib.file name .source
  | .tests name => lib.file name .tests
  | .component name => do present presenter format (.component (← lib.component name))
  | .stories name => do present presenter format (.stories (← lib.stories name))
  | .document name => do present presenter format (.document (← lib.document name))
  | .summary name => do present presenter format (.summary (← lib.summary name))
  | .dependencies name deep => do
    present presenter format (.dependencies (← lib.dependencies name deep))
  | .theme category => do present presenter format (.theme (← lib.theme category))
  | .themeFacts => do present presenter format (.themeFacts (← lib.themeFacts))
  | .search query described => do
    let results ← lib.search query described
    match format with
    | .markdown => return results.flatMap resultLine
    | .json => present presenter format (.plain (.list (results.map SearchResult.node)))

/-- How a run ends whose command failed: an absence explains itself, another failure of the source
is introduced by the command's name. -/
def endingOf (name : Text) : Except Failure Text → Ending
  | .ok output => .printed output
  | .error (.source e) =>
    if e.isAbsence then .refused (e.message ++ ['\n'])
    else .refused (Log.programName ++ ' ' :: name ++ " failed: ".toList ++ e.message ++
      "\nRun with --verbose for more details.\n".toList)
  | .error e => .failed (.reading e)

/-- The configuration of a run: a checkout and a token of the command line come first. -/
def configOf (fs : FileSystem) (env : Environment) (s : Settings) : Except LoadError Config := do
  let config ← Config.load fs env s.config
  let checkout ← match s.checkout with
    | none => pure config.source.checkout
    | some path => some <$> env.locate path
  let token := match s.token with
    | none | some [] => config.source.token
    | some token => some token
  return { config with source := { config.source with checkout, token } }

/-- The first number, unless it is missing or zero. -/
def portOr (absent : Int) : Option Int → Int
  | none => absent
  | some n => if n = 0 then absent else n

/-- The first text, unless it is missing or empty. -/
def hostOr (absent : Text) : Option Text → Text
  | none | some [] => absent
  | some s => s

/-- Runs a command under a configuration. -/
def Invocation.perform (i : Invocation) (config : Config) (world : World) :
    Ending × List Log.Entry × FileSystem :=
  match i.command with
  | .serve host port =>
    (.serving (hostOr config.service.host host) (portOr config.service.port port) config, [],
      world.files)
  | .answer query format =>
    let presenter := Presenter.ofDirectory world.files config.templates
    let (result, s) := (output config.library presenter format query).run
      ⟨config.cached world, [config.origin.notice]⟩
    (endingOf i.name result, s.log, s.state.inner.files)

/-- Runs a command. -/
def Invocation.run (i : Invocation) (env : Environment) (world : World) : Run :=
  let (error?, channels, files) :=
    Log.openChannels world.files env.directory i.settings.isVerbose i.settings.logFile
  match error? with
  | some e => ⟨.failed (.logFile e), channels, [], files⟩
  | none =>
    match configOf files env i.settings with
    | .error (.rejected e) => ⟨.refused (e.message ++ ['\n']), channels, [], files⟩
    | .error e => ⟨.failed (.load e), channels, [], files⟩
    | .ok config =>
      let (ending, log, files) := i.perform config { world with files }
      ⟨ending, channels, log, files⟩

/-- Runs the program with the words of a command line. -/
def run (env : Environment) (world : World) (words : List Text) : Run :=
  match Invocation.ofWords words with
  | .error s => ⟨.stopped s, .unopened, [], world.files⟩
  | .ok i => i.run env world

end CommandLine

end ComponentCatalog
