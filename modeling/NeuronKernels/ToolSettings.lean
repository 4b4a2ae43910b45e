import NeuronKernels.TextPieces

/-!
# Settings

The settings of the tools fall into four sections. Each of the ten settings has a key, a dotted
name made of its section and its field, and is written as a text of one of three kinds.
-/

namespace NeuronKernels.ToolSettings
open TextPieces

structure AssemblySettings where
  maxExpressions : Nat
  deriving DecidableEq

structure DeviceSettings where
  kind : String
  forcePortable : Bool
  forceGpu : Bool
  deriving DecidableEq

/-- How a network is written out as C. -/
structure StandaloneSettings where
  name : String
  constOnly : Bool
  outputDir : String
  deriving DecidableEq

structure LoggingSettings where
  level : String
  fileLogging : Bool
  logDir : String
  deriving DecidableEq

structure Settings where
  assembly : AssemblySettings
  device : DeviceSettings
  standalone : StandaloneSettings
  logging : LoggingSettings
  deriving DecidableEq

def defaults : Settings where
  assembly := ⟨100⟩
  device := ⟨"auto", false, false⟩
  standalone := ⟨"network", false, "."⟩
  logging := ⟨"info", false, "logs"⟩

inductive Key
  | maxExpressions
  | deviceKind
  | forcePortable
  | forceGpu
  | standaloneName
  | constOnly
  | outputDir
  | logLevel
  | fileLogging
  | logDir
  deriving DecidableEq

inductive Section
  | assembly
  | device
  | standalone
  | logging
  deriving DecidableEq

def Section.name : Section → String
  | .assembly => "compiler"
  | .device => "backend"
  | .standalone => "standalone"
  | .logging => "logging"

def Section.keys : Section → List Key
  | .assembly => [.maxExpressions]
  | .device => [.deviceKind, .forcePortable, .forceGpu]
  | .standalone => [.standaloneName, .constOnly, .outputDir]
  | .logging => [.logLevel, .fileLogging, .logDir]

def sections : List Section := [.assembly, .device, .standalone, .logging]

def Key.sectionOf : Key → Section
  | .maxExpressions => .assembly
  | .deviceKind | .forcePortable | .forceGpu => .device
  | .standaloneName | .constOnly | .outputDir => .standalone
  | .logLevel | .fileLogging | .logDir => .logging

def Key.field : Key → String
  | .maxExpressions => "max_expressions_per_kernel"
  | .deviceKind => "backend_type"
  | .forcePortable => "force_portable"
  | .forceGpu => "force_gpu"
  | .standaloneName => "name"
  | .constOnly => "const_only"
  | .outputDir => "output_dir"
  | .logLevel => "level"
  | .fileLogging => "file_logging"
  | .logDir => "log_dir"

/-- The dotted name of a setting. -/
def Key.name (key : Key) : String := key.sectionOf.name ++ "." ++ key.field

def keys : List Key := sections.flatMap Section.keys

def Key.ofName (name : String) : Option Key := keys.find? fun key => key.name == name

inductive Value
  | number (n : Nat)
  | flag (b : Bool)
  | text (s : String)
  deriving DecidableEq

inductive Kind
  | number
  | flag
  | text
  deriving DecidableEq

def Key.kind : Key → Kind
  | .maxExpressions => .number
  | .forcePortable | .forceGpu | .constOnly | .fileLogging => .flag
  | .deviceKind | .standaloneName | .outputDir | .logLevel | .logDir => .text

/-- A yes or no; capital letters do not matter, blanks do. -/
def readFlag (s : String) : Option Bool :=
  let small := smallLetters s
  if ["true", "1", "yes", "on"].contains small then some true
  else if ["false", "0", "no", "off"].contains small then some false
  else none

def readValue : Kind → String → Option Value
  | .number, s => (readUnsigned s).map .number
  | .flag, s => (readFlag s).map .flag
  | .text, s => some (.text s)

def get (s : Settings) : Key → Value
  | .maxExpressions => .number s.assembly.maxExpressions
  | .deviceKind => .text s.device.kind
  | .forcePortable => .flag s.device.forcePortable
  | .forceGpu => .flag s.device.forceGpu
  | .standaloneName => .text s.standalone.name
  | .constOnly => .flag s.standalone.constOnly
  | .outputDir => .text s.standalone.outputDir
  | .logLevel => .text s.logging.level
  | .fileLogging => .flag s.logging.fileLogging
  | .logDir => .text s.logging.logDir

/-- The settings with another value of one; a value of the wrong kind changes nothing. -/
def put (s : Settings) : Key → Value → Settings
  | .maxExpressions, .number n => { s with assembly := ⟨n⟩ }
  | .deviceKind, .text t => { s with device := { s.device with kind := t } }
  | .forcePortable, .flag b => { s with device := { s.device with forcePortable := b } }
  | .forceGpu, .flag b => { s with device := { s.device with forceGpu := b } }
  | .standaloneName, .text t => { s with standalone := { s.standalone with name := t } }
  | .constOnly, .flag b => { s with standalone := { s.standalone with constOnly := b } }
  | .outputDir, .text t => { s with standalone := { s.standalone with outputDir := t } }
  | .logLevel, .text t => { s with logging := { s.logging with level := t } }
  | .fileLogging, .flag b => { s with logging := { s.logging with fileLogging := b } }
  | .logDir, .text t => { s with logging := { s.logging with logDir := t } }
  | _, _ => s

theorem ofName_name (key : Key) : Key.ofName key.name = some key := by
  cases key <;> decide +kernel

theorem get_put_of_ne {key other : Key} (h : other ≠ key) (s : Settings) (v : Value) :
    get (put s key v) other = get s other := by
  cases key <;> cases v <;> cases other <;> simp_all [get, put]

theorem get_put_of_readValue {key : Key} {text : String} {v : Value}
    (h : readValue key.kind text = some v) (s : Settings) : get (put s key v) key = v := by
  cases key <;> simp only [Key.kind, readValue, Option.map_eq_some_iff, Option.some.injEq] at h <;>
    obtain ⟨a, _, rfl⟩ := h <;> rfl

end NeuronKernels.ToolSettings
