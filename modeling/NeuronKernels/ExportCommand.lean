import NeuronKernels.LoggingSession
import NeuronKernels.NetworkFiles
import NeuronKernels.SettingsSources

/-!
# The export command

The command reads a stored network and a snapshot of its arena and writes the network as C files.
What the command line does not say is taken from the settings. Nothing is written before the
settings, the arena and the network have all been read without fault.
-/

namespace NeuronKernels.ExportCommand
open BinaryFloat ComputeDevice FileTree KernelNetwork LogEvent LoggingSession NetworkErrors
open NetworkFiles SettingsProblems TextPieces

inductive CliOption
  | network
  | context
  | name
  | constOnly
  | outputDir
  | config
  deriving DecidableEq

def cliOptions : List CliOption := [.network, .context, .name, .constOnly, .outputDir, .config]

def CliOption.flag : CliOption → String
  | .network => "--network"
  | .context => "--context"
  | .name => "--name"
  | .constOnly => "--const-only"
  | .outputDir => "--output-dir"
  | .config => "--config"

def CliOption.takesValue : CliOption → Bool
  | .constOnly => false
  | _ => true

def CliOption.allowsEmpty : CliOption → Bool
  | .name => true
  | _ => false

abbrev Given := List (CliOption × String)

inductive Request
  | export (given : Given)
  | version
  | help
  | wrongUsage
  deriving DecidableEq

def valueOf (option : CliOption) : Given → Option String
  | [] => none
  | entry :: rest => if entry.1 = option then some entry.2 else valueOf option rest

/-- An argument cut at its first equals sign. -/
def cutAtEquals (argument : String) : String × Option String :=
  let cs := argument.toList
  let before := String.ofList (cs.takeWhile (· != '='))
  match cs.dropWhile (· != '=') with
  | [] => (before, none)
  | _ :: value => (before, some (String.ofList value))

def isValue (argument : String) : Bool :=
  match argument.toList with
  | ['-'] => true
  | '-' :: _ => false
  | _ => true

/-- What has been given, with one option more; each may be given once. -/
def addOption (option : CliOption) (value : String) (given : Given) : Option Given :=
  if (valueOf option given).isSome then none
  else if value.isEmpty && option.takesValue && !option.allowsEmpty then none
  else some ((option, value) :: given)

def finish (given : Given) : Request :=
  if (valueOf .network given).isSome && (valueOf .context given).isSome then .export given
  else .wrongUsage

/-- Reads arguments from left to right; the first fault decides. -/
def readArguments : (given : Given) → List String → Request
  | given, [] => finish given
  | given, argument :: rest =>
    let (flag, value) := cutAtEquals argument
    if argument = "--" then if rest.isEmpty then finish given else .wrongUsage
    else if argument = "--version" then .version
    else if argument = "--help" then .help
    else
      match cliOptions.find? (fun o => o.flag == flag), value with
      | none, _ =>
        match argument.toList with
        | '-' :: 'V' :: _ => .version
        | '-' :: 'h' :: _ => .help
        | _ => .wrongUsage
      | some option, some value =>
        if option.takesValue then
          match addOption option value given with
          | none => .wrongUsage
          | some given => readArguments given rest
        else .wrongUsage
      | some option, none =>
        if option.takesValue then
          match rest with
          | [] => .wrongUsage
          | next :: others =>
            if isValue next then
              match addOption option next given with
              | none => .wrongUsage
              | some given => readArguments given others
            else .wrongUsage
        else
          match addOption option "" given with
          | none => .wrongUsage
          | some given => readArguments given rest

/-- The request of a command line. Debug flags are read by themselves and count for nothing here. -/
def requestOf (arguments : List String) : Request :=
  readArguments [] (arguments.filter fun a => (dropStart DebugFlags.flagStart a).isNone)

def overridesOf (given : Given) : List (String × String) :=
  let entry := fun (option : CliOption) (key : ToolSettings.Key) =>
    ((valueOf option given).map fun value => (key.name, value)).toList
  entry .name .standaloneName
    ++ (if (valueOf .constOnly given).isSome then [(ToolSettings.Key.constOnly.name, "true")]
      else [])
    ++ entry .outputDir .outputDir

inductive Failure
  | settings (error : SettingsError)
  | unsound (error : SettingsError)
  | arena (path : String) (error : ArenaSnapshot.SnapshotError)
  | network (path : String) (error : NetworkError)
  | writing (error : NetworkError)
  deriving DecidableEq

def networkChain (error : NetworkError) : List String :=
  match error with
  | .file cause => [error.message, cause.message]
  | _ => [error.message]

def settingsChain (error : SettingsError) : List String :=
  match error with
  | .unreadable cause => [error.message, cause.message]
  | _ => [error.message]

/-- A failure and its causes, the nearest first. -/
def Failure.chain : Failure → List String
  | .settings error => "Failed to load configuration" :: settingsChain error
  | .unsound error => settingsChain error
  | .arena path error => ["Failed to load memory context " ++ path, error.message]
  | .network path error => ("Failed to load network " ++ path) :: networkChain error
  | .writing error => networkChain error

/-- A text with every line after the first set in. -/
def setIn (blanks text : String) : String :=
  joinWith ("\n" ++ blanks) ((splitOn '\n' text.toList).map String.ofList)

def numberedCause (position : Nat) (text : String) : String :=
  let number := toString position
  let blanks := String.ofList (List.replicate (5 - number.length) ' ')
  blanks ++ number ++ ": " ++ setIn "       " text

def report : List String → String
  | [] => ""
  | [message] => message
  | [message, cause] => message ++ "\n\nCaused by:\n    " ++ setIn "    " cause
  | message :: causes =>
    message ++ "\n\nCaused by:\n" ++ joinWith "\n" (causes.mapIdx numberedCause)

/-- The surroundings of the command. `token` makes the include guard unique. -/
structure Surroundings where
  arguments : List String
  environment : SettingsSources.Environment
  moment : LoggingSession.Moment
  token : String

/-- What the command comes to: exit code, standard output, failure, warnings, files, and the lines
that it logs. -/
structure Finished where
  exit : Nat
  output : String
  failure : Option Failure
  warnings : List String
  tree : Tree
  log : List String

def noFileWarning : String :=
  "Warning: log_dir ignored, built without the file-logging feature"

def eventTarget : String := "export_standalone"

def completeEvent (count : Nat) (name : String) : Event where
  level := .info
  target := eventTarget
  message := "Export complete"
  fields := [("files", .number count), ("name", .plain name)]
  spans := []

def stop (exit : Nat) (output : String) (tree : Tree) : Finished :=
  ⟨exit, output, none, [], tree, []⟩

def readSettings (s : Surroundings) (given : Given) (tree : Tree) :
    Except Failure ToolSettings.Settings :=
  match SettingsSources.resolve tree s.environment (valueOf .config given) (overridesOf given) with
  | .error e => .error (.settings e)
  | .ok settings =>
    match validate settings with
    | .error e => .error (.unsound e)
    | .ok () => .ok settings

/-- The network of the command, with the events of reading it. The device is never used. -/
def readNetwork (given : Given) (tree : Tree) :
    Except Failure (Network .double Portable) × List Event :=
  let arenaPath := (valueOf .context given).getD ""
  let networkPath := (valueOf .network given).getD ""
  match loadArena .double tree arenaPath with
  | (.error e, events) => (.error (.arena arenaPath e), events)
  | (.ok a, events) =>
    let loaded := loadNetwork tree networkPath (Network.ofArena a)
    match loaded.result with
    | .error e => (.error (.network networkPath e), events ++ loaded.events)
    | .ok () => (.ok loaded.network, events ++ loaded.events)

/-- What is done with sound settings: the written paths, the tree and the events. -/
def exportWith (s : Surroundings) (given : Given) (settings : ToolSettings.Settings) (tree : Tree) :
    Except Failure (List String) × Tree × List Event :=
  match readNetwork given tree with
  | (.error failure, events) => (.error failure, tree, events)
  | (.ok n, events) =>
    let written := writeStandalone settings.standalone s.token n tree
    match written.result with
    | .error e => (.error (.writing e), written.tree, events ++ written.events)
    | .ok paths =>
      (.ok paths, written.tree,
        events ++ written.events ++ [completeEvent paths.length settings.standalone.name])

def runExport (s : Surroundings) (given : Given) (tree : Tree) : Finished :=
  match readSettings s given tree with
  | .error failure => ⟨1, "", some failure, [], tree, []⟩
  | .ok settings =>
    let flags := DebugFlags.ofArguments s.arguments
      (SettingsSources.lookupVariable DebugFlags.variableName s.environment)
    let options := { optionsOf settings.logging with logDir := none }
    let session := start flags options
      (SettingsSources.lookupVariable filterVariable s.environment) s.moment tree
    let warnings := session.console
      ++ (if settings.logging.fileLogging then [noFileWarning] else [])
    let (result, tree, events) := exportWith s given settings tree
    let log := match session.result with
      | .ok session => session.consoleLines "0" events
      | .error _ => []
    match result with
    | .error failure => ⟨1, "", some failure, warnings, tree, log⟩
    | .ok paths => ⟨0, concat (paths.map fun path => path ++ "\n"), none, warnings, tree, log⟩

def run (s : Surroundings) (tree : Tree) : Finished :=
  match requestOf s.arguments with
  | .version => stop 0 "export_standalone 0.1.0\n" tree
  | .help => stop 0 DebugFlags.helpText tree
  | .wrongUsage => stop 2 "" tree
  | .export given => runExport s given tree

end NeuronKernels.ExportCommand
