import NeuronKernels.BlankCharacters
import NeuronKernels.LogEvent
import NeuronKernels.TextPieces

/-!
# Debug flags

Parts of the system can be switched to more detailed logging one by one, by flags on the command
line or by an environment variable. The flags are a set of names, kept in ascending order. They
become a log filter with one rule for each name and the base level behind them.
-/

namespace NeuronKernels.DebugFlags
open TextPieces

/-- The parts of the system that are switched on by `all`. -/
def knownParts : List String :=
  ["kernelnet", "kernelnet-neural", "kernelnet-kernel-engine", "kernelnet-config",
   "kernelnet-observability"]

/-- The environment variable with names to switch on. -/
def variableName : String := "KERNELNET_DEBUG"

def flagStart : String := "--debug-"

/-- The names that are switched on, in ascending order and each once. -/
structure Flags where
  names : List String
  deriving DecidableEq

/-- A name put into its place among others, unless it is there. -/
def insertName (name : String) : List String → List String
  | [] => [name]
  | other :: rest =>
    if other = name then other :: rest
    else if precedes name other then name :: other :: rest
    else other :: insertName name rest

theorem mem_insertName {n name : String} {names : List String} :
    n ∈ insertName name names ↔ n = name ∨ n ∈ names := by
  induction names with
  | nil => simp [insertName]
  | cons other rest ih =>
    unfold insertName
    split
    · next h => subst h; simp
    · split
      · simp
      · simp only [List.mem_cons, ih]
        exact or_left_comm

namespace Flags

def none : Flags := ⟨[]⟩

def enable (name : String) (f : Flags) : Flags := ⟨insertName name f.names⟩

def enableAll (names : List String) (f : Flags) : Flags := names.foldl (fun f n => f.enable n) f

def isEnabled (f : Flags) (name : String) : Bool := f.names.contains name

def anyEnabled (f : Flags) : Bool := !f.names.isEmpty

def level (f : Flags) (name : String) : LogEvent.Level := if f.isEnabled name then .debug else .info

end Flags

def namesOfArgument (argument : String) : List String :=
  match dropStart flagStart argument with
  | none => []
  | some name => if name = "all" then knownParts else [name]

/-- The names that a text with commas switches on; `all` on its own stands for every part. -/
def namesOfText (text : String) : List String :=
  let cs := text.toList
  if String.ofList (BlankCharacters.trim cs) = "all" then knownParts
  else (((splitOn ',' cs).map BlankCharacters.trim).filter fun n => !n.isEmpty).map String.ofList

def ofArguments (arguments : List String) (variableText : Option String) : Flags :=
  (Flags.none.enableAll (arguments.flatMap namesOfArgument)).enableAll
    ((variableText.map namesOfText).getD [])

/-- A name as log targets spell it. -/
def targetName (name : String) : String :=
  String.ofList (name.toList.map fun c => if c = '-' then '_' else c)

/-- The log filter of flags: their rules, and the base level last. -/
def filterText (f : Flags) (baseLevel : String) : String :=
  joinWith "," (f.names.map (fun n => targetName n ++ "=debug") ++ [baseLevel])

def helpText : String :=
  concat
    ["Debug Flags:\n",
     "  --debug-all                    Enable debug logging for all crates\n",
     "  --debug-\x7bcrate-name\x7d          Enable debug logging for specific crate\n",
     "\n",
     "Available crates:\n",
     "  " ++ joinWith ", " knownParts ++ "\n",
     "\n",
     "Environment Variable:\n",
     "  " ++ variableName ++
       "=\x7bcrate-name\x7d[,\x7bcrate-name\x7d]  Enable debug for crates (comma-separated)\n",
     "  " ++ variableName ++ "=all                               Enable debug for all crates\n"]

end NeuronKernels.DebugFlags
