import ComponentCatalog.CommandLine.Words
import ComponentCatalog.Library.Query
import ComponentCatalog.Present.Presenter

/-!
The commands, and the command lines that give them. Switches of the program stand before the name of
the command, those of the command after it.
-/
namespace ComponentCatalog.CommandLine

open Text

inductive Command where
  | answer (query : Query) (format : Format)
  | serve (host : Option Text) (port : Option Int)
  deriving DecidableEq, Repr

/-- The settings of a run that hold for all commands. -/
structure Settings where
  isVerbose : Bool := false
  config : Text := ['.']
  checkout : Option Text := none
  token : Option Text := none
  logFile : Option Text := none
  deriving DecidableEq, Repr

structure Invocation where
  settings : Settings
  /-- The command's name. -/
  name : Text
  command : Command
  deriving DecidableEq, Repr

/-- Why a command line gives no command. -/
inductive Stop where
  | help
  | misuse
  deriving DecidableEq, Repr

inductive Key where
  | help | verbose | config | checkout | token | logFile | format | summary | deep | category | facts
  | described | host | port
  deriving DecidableEq, Repr

/-- What the words after a command's name say. -/
structure Details where
  isVerbose : Bool := false
  operand : Text := []
  format : Format := .json
  summary : Bool := false
  deep : Bool := false
  category : Option Text := none
  facts : Bool := false
  described : Bool := false
  host : Option Text := none
  port : Option Int := none

def helpSwitch : Switch Key := { key := .help, name := "help", letter := some 'h' }

def verboseSwitch : Switch Key := { key := .verbose, name := "verbose", letter := some 'v' }

def formatSwitch : Switch Key := { key := .format, name := "format", takesValue := true }

def programSwitches : List (Switch Key) :=
  [helpSwitch, verboseSwitch, { key := .config, name := "config", takesValue := true },
    { key := .checkout, name := "local", takesValue := true },
    { key := .token, name := "github-token", takesValue := true },
    { key := .logFile, name := "log-file", takesValue := true }]

/-- A command: its switches beside those for help and verbosity, its operands, and what it asks. -/
structure Form where
  switches : List (Switch Key)
  operands : Operands
  command : Details → Command

/-- A form whose command asks about the catalogue. -/
def Form.asking (switches : List (Switch Key)) (operands : Operands) (query : Details → Query) :
    Form :=
  ⟨switches, operands, fun d => .answer (query d) d.format⟩

def Form.ofName? (name : Text) : Option Form :=
  match String.ofList name with
  | "list" => some (.asking [] .none fun _ => .components)
  | "source" => some (.asking [] .one fun d => .source d.operand)
  | "tests" => some (.asking [] .one fun d => .tests d.operand)
  | "metadata" => some (.asking [formatSwitch] .one fun d => .component d.operand)
  | "stories" => some (.asking [formatSwitch] .one fun d => .stories d.operand)
  | "docs" =>
    some (.asking [formatSwitch, { key := .summary, name := "summary" }] .one fun d =>
      if d.summary then .summary d.operand else .document d.operand)
  | "deps" =>
    some (.asking [formatSwitch, { key := .deep, name := "deep" }] .one fun d =>
      .dependencies d.operand d.deep)
  | "theme" =>
    some (.asking [formatSwitch, { key := .category, name := "category", takesValue := true },
      { key := .facts, name := "metadata" }] .none fun d =>
        if d.facts then .themeFacts else .theme d.category)
  | "search" =>
    some (.asking [formatSwitch, { key := .described, name := "include-description" }] .one fun d =>
      .search d.operand d.described)
  | "serve" =>
    some ⟨[{ key := .host, name := "host", takesValue := true },
      { key := .port, name := "port", takesValue := true }], .none, fun d => .serve d.host d.port⟩
  | _ => none

/-- An integer in free text, as the value of a switch. -/
def intValue (s : Text) : Except Stop Int :=
  match Number.readInt? s with
  | .ok (some n) => .ok n
  | _ => .error .misuse

/-- Nothing was left over, missing or wrongly used. -/
def Event.isSound : Event α → Bool
  | .surplus | .missing | .misuse => false
  | _ => true

/-- Takes the events of a command line in turn; a word left over, or an operand missing, counts only
at the end. -/
def takeAll (step : β → Event α → Except Stop β) (start : β) (events : List (Event α)) :
    Except Stop β := do
  let result ← events.foldlM step start
  if events.all Event.isSound then return result else throw .misuse

/-- One event after a command's name. -/
def Details.take (d : Details) : Event Key → Except Stop Details
  | .flag .help => .error .help
  | .flag .verbose => .ok { d with isVerbose := true }
  | .flag .summary => .ok { d with summary := true }
  | .flag .deep => .ok { d with deep := true }
  | .flag .facts => .ok { d with facts := true }
  | .flag .described => .ok { d with described := true }
  | .value .format s =>
    match Format.ofName? s with
    | some format => .ok { d with format }
    | none => .error .misuse
  | .value .category s => .ok { d with category := some s }
  | .value .host s => .ok { d with host := some s }
  | .value .port s => (intValue s).map fun n => { d with port := some n }
  | .operand s => .ok { d with operand := s }
  | .misuse => .error .misuse
  | _ => .ok d

/-- The settings so far, and the command if it was met. -/
abbrev Progress := Settings × Option (Text × Details × Form)

/-- The command of a name and the words after it. -/
def commandOf (name : Text) (words : List Text) : Except Stop (Text × Details × Form) :=
  match Form.ofName? name with
  | none => .error .misuse
  | some form => do
    let events := read ([helpSwitch, verboseSwitch] ++ form.switches) form.operands words
    return (name, ← takeAll Details.take {} events, form)

/-- One event before a command's name, or the command. -/
def takeSetting (p : Progress) : Event Key → Except Stop Progress
  | .flag .help => .error .help
  | .flag .verbose => .ok ({ p.1 with isVerbose := true }, p.2)
  | .value .config s => .ok ({ p.1 with config := s }, p.2)
  | .value .checkout s => .ok ({ p.1 with checkout := some s }, p.2)
  | .value .token s => .ok ({ p.1 with token := some s }, p.2)
  | .value .logFile s => .ok ({ p.1 with logFile := some s }, p.2)
  | .command name words => do return (p.1, some (← commandOf name words))
  | .misuse => .error .misuse
  | _ => .ok p

/-- The command that a command line gives. -/
def Invocation.ofWords (words : List Text) : Except Stop Invocation := do
  let events := read programSwitches .command words
  match ← takeAll takeSetting ({}, none) events with
  | (_, none) => throw .misuse
  | (settings, some (name, details, form)) =>
    let settings := { settings with isVerbose := settings.isVerbose || details.isVerbose }
    return { settings, name, command := form.command details }

end ComponentCatalog.CommandLine
