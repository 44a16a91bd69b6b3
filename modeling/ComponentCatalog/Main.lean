import ComponentCatalog.CommandLine.Run
import ComponentCatalog.Service.Start

/-!
The program: takes a picture of the files that a run may read, runs the command, and prints what
came of it. It has no way to the network: a repository is not reached, and requests to the service
are read from the standard input, one a line.
-/

namespace ComponentCatalog.Program

/-- Files and directories of the disk. -/
structure Picture where
  files : List (Place × Text.Utf8.Octets) := []
  directories : List Place := []
  /-- Why files are not read that are there. -/
  refusals : List (Place × Text) := []

def pathOf (place : Place) : String := String.ofList place.text

/-- A failure to read, as the system reports it. -/
def reasonOf (place : Place) : IO.Error → Text
  | .permissionDenied _ code _ =>
    "[Errno ".toList ++ Number.natText code.toNat ++ "] Permission denied: ".toList ++
      Display.quoted place.text
  | e => e.toString.toList

/-- Adds what lies at a place of the disk; of a directory, also what lies below it. -/
partial def Picture.add (picture : Picture) (place : Place) : IO Picture := do
  let path := (← IO.currentDir) / pathOf place
  if ← path.isDir then
    let entries ← path.readDir
    entries.foldlM (fun picture entry => picture.add (place ++ [entry.fileName.toList]))
      { picture with directories := place :: picture.directories }
  else if ← path.pathExists then
    match ← (IO.FS.readBinFile path).toBaseIO with
    | .ok octets => return { picture with files := (place, octets.toList) :: picture.files }
    | .error e =>
      return { picture with
        files := (place, []) :: picture.files
        refusals := (place, reasonOf place e) :: picture.refusals }
  else
    return picture

def Picture.fileSystem (picture : Picture) : FileSystem :=
  (FileSystem.ofLists picture.files picture.directories).withRefusals picture.refusals

/-- The home directory on a line of the system's accounts, if the line is that of a user. -/
def homeOn? (user line : Text) : Option Text :=
  let columns := line.splitOn ':'
  if columns.head? = some user then columns[5]? else none

/-- The home directories: the user's own from the environment, those of others from the accounts. -/
def homes : IO Homes := do
  let own ← IO.getEnv "HOME"
  let accounts := (← IO.currentDir) / "/etc/passwd"
  let lines ← if ← accounts.pathExists then IO.FS.lines accounts else pure #[]
  return ⟨own.map String.toList, fun user => lines.toList.findSome? (homeOn? user ·.toList)⟩

def environment : IO Environment := do
  let directory := Place.follow [] (toString (← IO.currentDir)).toList
  let names := ["GITHUB_PERSONAL_ACCESS_TOKEN", "GITHUB_TOKEN", "UIDOCS_LOCAL_PATH"]
  let values ← names.filterMapM fun name => do
    return (← IO.getEnv name).map fun value => (name.toList, value.toList)
  return ⟨directory, ← homes, values⟩

def unreachableWeb : GitHub.Web := ⟨fun _ => .unreachable "no network".toList, [], 0⟩

/-- The picture of what a command may read: the configuration, which has to be readable, then what
it names. -/
def pictureFor (env : Environment) (settings : CommandLine.Settings) : IO Picture := do
  let mut picture : Picture := { directories := [env.directory] }
  if let .ok place := env.locate settings.config then
    picture ← picture.add (place ++ [Config.fileName])
    let path := (← IO.currentDir) / pathOf place
    if ← path.isDir then
      picture := { picture with directories := place :: picture.directories }
    else
      picture ← picture.add place
  if let (_, reason) :: _ := picture.refusals then
    throw (.userError (String.ofList reason))
  if let some path := settings.logFile then
    picture ← picture.add (env.directory.follow path)
  if let .ok config := CommandLine.configOf picture.fileSystem env settings then
    if let some directory := config.templates then
      picture ← picture.add (Place.follow [] directory)
    if let some root := config.source.checkout then
      for path in [config.source.componentsPath, config.source.themesPath] do
        picture ← picture.add (root.follow (normalizePath path))
  return picture

/-- Writes the log file. -/
def writeLog (run : CommandLine.Run) : IO Unit := do
  if let .opened _ (some file) := run.channels then
    if let some octets := run.finalFiles.file? file then
      IO.FS.createDirAll (pathOf file.dropLast)
      IO.FS.writeBinFile (pathOf file) ⟨octets.toArray⟩

def printText (s : Text) : IO Unit := do
  IO.print (String.ofList s)
  (← IO.getStdout).flush

/-- A request on a line: the method, the address and, for the rest of the line, the body. -/
def requestOf (line : Text) : Service.Request :=
  match line.splitOn ' ' with
  | method :: address :: body => ⟨method, .ofText address none, some (Text.join [' '] body)⟩
  | _ => ⟨"GET".toList, .ofText line none, none⟩

/-- Answers requests until the input ends. -/
partial def serve (channels : Log.Channels) (service : Service (Cached Float World))
    (state : Service.State (Cached Float World)) : IO UInt32 := do
  let line ← (← IO.getStdin).getLine
  if line.isEmpty then return 0
  let request := requestOf (Text.strip line.toList)
  let (response, log, state) := service.respond request state
  IO.eprint (String.ofList (channels.console log))
  printText (Number.natText response.status ++ ' ' :: response.contentType ++ ['\n'] ++
    response.body ++ ['\n'])
  serve channels service state

def runWords (words : List Text) : IO UInt32 := do
  let env ← environment
  let picture ← match CommandLine.Invocation.ofWords words with
    | .ok i => pictureFor env i.settings
    | .error _ => pure {}
  let world : World := ⟨picture.fileSystem, unreachableWeb⟩
  let run := CommandLine.run env world words
  writeLog run
  IO.eprint (String.ofList run.console)
  match run.ending with
  | .printed output =>
    printText output
    return 0
  | .refused _ => return 1
  | .stopped .help => return 0
  | .stopped .misuse => return 2
  | .failed f =>
    IO.eprintln (String.ofList f.message)
    return 1
  | .serving host port config =>
    IO.eprint (String.ofList (run.channels.console [Service.startNotice host port]))
    serve run.channels (.ofConfig config world) (Service.initial config world)

end ComponentCatalog.Program

def main (arguments : List String) : IO UInt32 :=
  ComponentCatalog.Program.runWords (arguments.map String.toList)
