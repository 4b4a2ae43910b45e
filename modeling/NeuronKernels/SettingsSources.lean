import NeuronKernels.SettingsDocument
import NeuronKernels.SettingsProblems

/-!
# Where settings come from

Settings come from a file, then from environment variables, then from overrides on the command line;
each later source wins. Of an environment variable that cannot be read nothing is taken, while an
override that cannot be read is an error. The file is the one that is named explicitly, or the one
that the environment names, or the nearest one in the working folder and the five folders above it.
-/

namespace NeuronKernels.SettingsSources
open FileTree ToolSettings SettingsProblems

abbrev Environment := List (String × String)

def lookupVariable (name : String) : Environment → Option String
  | [] => none
  | entry :: rest => if entry.1 = name then some entry.2 else lookupVariable name rest

def settingVariables : List (String × Key) :=
  [("KERNELNET_MAX_EXPRESSIONS", .maxExpressions), ("KERNELNET_BACKEND", .deviceKind),
   ("KERNELNET_FORCE_PORTABLE", .forcePortable), ("KERNELNET_LOG_LEVEL", .logLevel),
   ("KERNELNET_STANDALONE_DIR", .outputDir)]

/-- The settings with one of them written as a text; `none` if it cannot be read. -/
def putText (s : Settings) (key : Key) (text : String) : Option Settings :=
  (readValue key.kind text).map (put s key)

def applyVariable (environment : Environment) (s : Settings) (entry : String × Key) : Settings :=
  match lookupVariable entry.1 environment with
  | none => s
  | some text => (putText s entry.2 text).getD s

def applyEnvironment (environment : Environment) (s : Settings) : Settings :=
  settingVariables.foldl (applyVariable environment) s

def applyOverride (s : Settings) (name text : String) : Except SettingsError Settings :=
  match Key.ofName name with
  | none => .error (.unknownKey name)
  | some key =>
    match putText s key text with
    | none => .error (.invalidValue name text)
    | some s => .ok s

def applyOverrides : List (String × String) → Settings → Except SettingsError Settings
  | [], s => .ok s
  | entry :: rest, s =>
    match applyOverride s entry.1 entry.2 with
    | .error e => .error e
    | .ok s => applyOverrides rest s

/-- How many folders above the working folder are searched. -/
def searchedParents : Nat := 5

/-- A folder and those above it, up to the root, at most so many. -/
def upwards : (count : Nat) → List String → List (List String)
  | 0, folder => [folder]
  | _ + 1, [] => [[]]
  | count + 1, name :: rest =>
    (name :: rest) :: upwards count (name :: rest).dropLast

def searchPlaces (tree : Tree) : List String :=
  match tree.workingFolder with
  | none => []
  | some folder => (upwards searchedParents folder).map fun f => pathText (f ++ [fileName])

/-- The settings file that is not named explicitly. -/
def findFile (tree : Tree) (environment : Environment) : Except SettingsError String :=
  match lookupVariable pathVariable environment with
  | some path => if pathExists tree path then .ok path else .error (.noFileNamed path)
  | none =>
    match (searchPlaces tree).find? (pathExists tree) with
    | some path => .ok path
    | none => .error (.noFileFound (searchPlaces tree))

/-- The settings of a file, without any other source. -/
def readFile (tree : Tree) (path : String) : Except SettingsError Settings :=
  match readText tree path with
  | .error cause => .error (.unreadable cause)
  | .ok text =>
    match SettingsDocument.ofText text with
    | none => .error .malformed
    | some s => .ok s

def loadFile (tree : Tree) (environment : Environment) (path : String)
    (overrides : List (String × String)) : Except SettingsError Settings :=
  match readFile tree path with
  | .error e => .error e
  | .ok s => applyOverrides overrides (applyEnvironment environment s)

/-- The settings of a file that must be there. -/
def load (tree : Tree) (environment : Environment) (path : Option String)
    (overrides : List (String × String)) : Except SettingsError Settings :=
  match path with
  | some path => loadFile tree environment path overrides
  | none =>
    match findFile tree environment with
    | .error e => .error e
    | .ok path => loadFile tree environment path overrides

/-- The settings of a file, or the defaults when no file is named and none is found. -/
def resolve (tree : Tree) (environment : Environment) (path : Option String)
    (overrides : List (String × String)) : Except SettingsError Settings :=
  match path with
  | some path => loadFile tree environment path overrides
  | none =>
    match findFile tree environment with
    | .ok path => loadFile tree environment path overrides
    | .error (.noFileFound _) => applyOverrides overrides (applyEnvironment environment defaults)
    | .error e => .error e

end NeuronKernels.SettingsSources
