import NeuronKernels.DebugFlags
import NeuronKernels.LogFilter
import NeuronKernels.RunFolders
import NeuronKernels.ToolSettings

/-!
# Logging sessions

A session writes the events that pass its filter to the console and, if asked to, to a file in a run
folder of its own. The filter is taken from the environment if there is one that can be read, and
from the debug flags and the base level otherwise. When a session starts, its run folder is made,
old run folders are removed, and the log file is opened, which makes the run folder again if it was
among the removed ones. There is one session at a time: a second start comes too late.
-/

namespace NeuronKernels.LoggingSession
open DebugFlags FileTree LogEvent LogFilter RunFolders

def filterVariable : String := "RUST_LOG"

def defaultRetention : Nat := 10

structure LoggingOptions where
  level : String
  logDir : Option String
  retention : Nat
  deriving DecidableEq

def defaultOptions : LoggingOptions := ⟨"info", none, defaultRetention⟩

def optionsOf (s : ToolSettings.LoggingSettings) : LoggingOptions :=
  ⟨s.level, if s.fileLogging then some s.logDir else none, defaultRetention⟩

/-- The moment at which a session starts, as it stands in names: to the second, and the day. -/
structure Moment where
  stamp : String
  day : String

inductive StartError
  | runFolder (path : String) (cause : FileFault)
  | cleanUp (base : String) (cause : FileFault)
  | logFile (path : String) (cause : FileFault)
  | alreadyStarted
  deriving DecidableEq

def StartError.message : StartError → String
  | .runFolder path cause => "Failed to create log directory: " ++ path ++ ": " ++ cause.message
  | .cleanUp base cause => "Failed to clean up " ++ base ++ ": " ++ cause.message
  | .logFile path cause => "Failed to open " ++ path ++ ": " ++ cause.message
  | .alreadyStarted =>
    "Failed to install logging subscriber: " ++
      "a global default trace dispatcher has already been set"

structure Session where
  rules : List Rule
  showsTargets : Bool
  runFolder : Option String

def chooseRules (flags : Flags) (level : String) (fromEnvironment : Option String) :
    List Rule × List String :=
  let text := filterText flags level
  match fromEnvironment.bind strictRules with
  | some rules => (rules, [])
  | none => (lenientRules text, complaints text)

def logFileName (day : String) : String := "kernelnet.log." ++ day

/-- What a step of starting comes to: it may have spoken on the console. -/
structure Started (α : Type) where
  result : Except StartError α
  tree : Tree
  console : List String

def openLogFile (runFolder day : String) (tree : Tree) : Except StartError Unit × Tree :=
  let path := join runFolder (logFileName day)
  match makeFolders runFolder tree with
  | (.error cause, tree) => (.error (.logFile path cause), tree)
  | (.ok (), tree) =>
    match writeText path "" tree with
    | (.error cause, tree) => (.error (.logFile path cause), tree)
    | (.ok (), tree) => (.ok (), tree)

/-- Makes the run folder of a session, removes old ones and opens the log file. -/
def startFile (base : String) (retention : Nat) (moment : Moment) (tree : Tree) : Started String :=
  let runFolder := runPath base moment.stamp
  match makeFolders runFolder tree with
  | (.error cause, tree) => ⟨.error (.runFolder runFolder cause), tree, []⟩
  | (.ok (), tree) =>
    match cleanUp base retention tree with
    | (.error cause, tree) => ⟨.error (.cleanUp base cause), tree, []⟩
    | (.ok leftovers, tree) =>
      let (result, tree) := openLogFile runFolder moment.day tree
      ⟨result.map fun _ => runFolder, tree, leftovers.map Leftover.message⟩

def start (flags : Flags) (options : LoggingOptions) (fromEnvironment : Option String)
    (moment : Moment) (tree : Tree) : Started Session :=
  let (rules, said) := chooseRules flags options.level fromEnvironment
  match options.logDir with
  | none => ⟨.ok ⟨rules, flags.anyEnabled, none⟩, tree, said⟩
  | some base =>
    let file := startFile base options.retention moment tree
    match file.result with
    | .error e => ⟨.error e, file.tree, said ++ file.console⟩
    | .ok runFolder =>
      ⟨.ok ⟨rules, flags.anyEnabled, some runFolder⟩, file.tree, said ++ file.console ++ said⟩

/-- Starts another session while there is one; only what is said while its rules are read remains of
it. -/
def startAgain (flags : Flags) (options : LoggingOptions) (fromEnvironment : Option String) :
    Except StartError Session × List String :=
  (.error .alreadyStarted, (chooseRules flags options.level fromEnvironment).2)

def Session.consoleLines (s : Session) (duration : String) (events : List Event) : List String :=
  (events.filterMap (filtered s.rules)).map fun e => e.line duration s.showsTargets

def Session.fileLines (s : Session) (duration : String) (events : List Event) : List String :=
  (events.filterMap (filtered s.rules)).map fun e => e.line duration true

end NeuronKernels.LoggingSession
