import NeuronKernels.FileTree
import NeuronKernels.QuotedText
import NeuronKernels.ToolSettings

/-!
# Problems of settings

Settings can be impossible to obtain, or they can be obtained and make no sense. In the second case
all problems are found at once, section by section.
-/

namespace NeuronKernels.SettingsProblems
open ToolSettings TextPieces

def deviceNames : List String := ["auto", "portable", "cpu", "wgpu", "gpu"]

def levelNames : List String := ["trace", "debug", "info", "warn", "error"]

inductive Problem
  | missing (key : Key)
  | notListed (key : Key) (value : String) (names : List String)
  | notIdentifier (key : Key) (value : String)
  | conflict (first second : Key)
  deriving DecidableEq

/-- Why a value is wrong; there is nothing to add to the other problems. -/
def Problem.reason : Problem → String
  | .notListed _ value names => "'" ++ value ++ "' is not one of " ++ joinWith ", " names
  | .notIdentifier _ value => "'" ++ value ++ "' is not a valid C identifier"
  | _ => ""

def Problem.message (problem : Problem) : String :=
  match problem with
  | .missing key => "Missing required configuration: " ++ key.name
  | .conflict first second => first.name ++ " and " ++ second.name ++ " cannot both be enabled"
  | .notListed key _ _ | .notIdentifier key _ =>
    "Invalid configuration value for " ++ key.name ++ ": " ++ problem.reason

/-- A value must be one of the names, whether written in capital letters or not. -/
def checkListed (key : Key) (value : String) (names : List String) : List Problem :=
  if names.contains (smallLetters value) then [] else [.notListed key value names]

def isIdentifier (s : String) : Bool :=
  match s.toList with
  | [] => false
  | c :: cs =>
    (c == '_' || isAsciiLetter c) && cs.all fun d => d == '_' || isAsciiLetter d || isDigit d

def deviceProblems (s : DeviceSettings) : List Problem :=
  checkListed .deviceKind s.kind deviceNames
    ++ if s.forcePortable && s.forceGpu then [.conflict .forcePortable .forceGpu] else []

def standaloneProblems (s : StandaloneSettings) : List Problem :=
  if s.name.isEmpty then [.missing .standaloneName]
  else if isIdentifier s.name then []
  else [.notIdentifier .standaloneName s.name]

def loggingProblems (s : LoggingSettings) : List Problem :=
  checkListed .logLevel s.level levelNames
    ++ if s.fileLogging && s.logDir.isEmpty then [.missing .logDir] else []

def problems (s : Settings) : List Problem :=
  deviceProblems s.device ++ standaloneProblems s.standalone ++ loggingProblems s.logging

inductive SettingsError
  | noFileNamed (path : String)
  | noFileFound (searched : List String)
  | unreadable (cause : FileTree.FileFault)
  | malformed
  | unsound (problems : List Problem)
  | unknownKey (key : String)
  | invalidValue (key value : String)
  deriving DecidableEq

def fileName : String := "kernelnet.toml"

/-- The environment variable that names a settings file. -/
def pathVariable : String := "KERNELNET_CONFIG_PATH"

def bullet (s : String) : String := "  - " ++ s

def SettingsError.message : SettingsError → String
  | .noFileNamed path =>
    "Config file not found. Searched: Config file specified by " ++ pathVariable
      ++ " not found: " ++ path
  | .noFileFound searched =>
    "Config file not found. Searched: '" ++ fileName ++ "' not found in any of these locations:\n"
      ++ joinWith "\n" (searched.map bullet) ++ "\n\nSet " ++ pathVariable
      ++ " to specify a custom location."
  | .unreadable cause => "Failed to read config file: " ++ cause.message
  | .malformed => "Invalid TOML syntax"
  | .unsound problems =>
    "Validation failed: Configuration validation failed:\n"
      ++ joinWith "\n" (problems.map fun p => bullet p.message)
  | .unknownKey key => "Unknown configuration key: " ++ key
  | .invalidValue key value =>
    "Invalid configuration value: " ++ key ++ " = " ++ QuotedText.quoted value

def validate (s : Settings) : Except SettingsError Unit :=
  if (problems s).isEmpty then .ok () else .error (.unsound (problems s))

end NeuronKernels.SettingsProblems
