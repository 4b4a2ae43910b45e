import NeuronKernels.FileTree
import NeuronKernels.JsonLayout
import NeuronKernels.JsonReading
import NeuronKernels.MemoryArena

/-!
# Snapshots of an arena

An arena is written as one JSON object. Its named slots are listed in the order of their lines, so
that arenas with the same names have the same snapshot. When a snapshot is read, every field may be
left out; afterwards all bindings are checked against the memory, and the outputs against their
bindings.
-/

namespace NeuronKernels.ArenaSnapshot
open BinaryFloat JsonReading MemoryArena FileTree

inductive SnapshotError
  | malformed (problem : Problem)
  | unbound (error : ArenaError)
  | outputCount (outputs bindings : Nat)
  | unreadable (path : String) (cause : FileFault)
  deriving DecidableEq

def SnapshotError.message : SnapshotError → String
  | .malformed problem => "Invalid context snapshot: " ++ problem.message
  | .unbound error => error.message
  | .outputCount outputs bindings =>
    "Invalid context snapshot: " ++ toString outputs ++ " outputs but " ++ toString bindings
      ++ " output bindings"
  | .unreadable path cause =>
    "Invalid context snapshot: Failed to read " ++ path ++ ": " ++ cause.message

inductive Field
  | memory
  | outputs
  | namedSlots
  | inputs
  | outputBindings
  | targets
  | rate
  deriving DecidableEq

def Field.name : Field → String
  | .memory => "memory"
  | .outputs => "outputs"
  | .namedSlots => "variables"
  | .inputs => "input_mapping"
  | .outputBindings => "output_mapping"
  | .targets => "target_mapping"
  | .rate => "rate_variable"

def fields : List Field :=
  [.memory, .outputs, .namedSlots, .inputs, .outputBindings, .targets, .rate]

variable {p : Precision}

def valueText (v : Value p) : List Char := (DecimalText.compactText v).toList

def variableLine (entry : String × Nat) : List Char :=
  JsonLayout.member entry.1 (JsonLayout.number entry.2)

/-- The named slots in the order of their lines. -/
def variableLines (entries : List (String × Nat)) : List (List Char) :=
  TextPieces.sortByText String.ofList (entries.map variableLine)

def slotText : Option Nat → List Char
  | none => ['n', 'u', 'l', 'l']
  | some index => JsonLayout.number index

def fieldText (a : Arena p) : Field → List Char
  | .memory => JsonLayout.list 1 (a.memory.map valueText)
  | .outputs => JsonLayout.list 1 (a.outputs.map valueText)
  | .namedSlots => JsonLayout.object 1 (variableLines a.namedSlots)
  | .inputs => JsonLayout.list 1 (a.inputs.map JsonLayout.number)
  | .outputBindings => JsonLayout.list 1 (a.outputBindings.map JsonLayout.number)
  | .targets => JsonLayout.list 1 (a.targets.map JsonLayout.number)
  | .rate => slotText a.rate

def snapshotText (a : Arena p) : String :=
  String.ofList (JsonLayout.object 0 (fields.map fun f => JsonLayout.member f.name (fieldText a f)))

/-- The word for a slot index in messages. -/
def indexWord : String := "usize"

/-- Reads named slots; a name that comes twice keeps the later index. -/
def readVariables : Reader (List (String × Nat)) :=
  readObject "a map"
    (fun name entries => .ok fun cs =>
      (readNat indexWord cs).map fun r => (putName name r.1 entries, r.2))
    []

def readField : Field → Arena p → Reader (Arena p)
  | .memory, a => fun cs => (readList (readFloat p) cs).map fun r => ({ a with memory := r.1 }, r.2)
  | .outputs, a => fun cs =>
    (readList (readFloat p) cs).map fun r => ({ a with outputs := r.1 }, r.2)
  | .namedSlots, a => fun cs => (readVariables cs).map fun r => ({ a with namedSlots := r.1 }, r.2)
  | .inputs, a => fun cs =>
    (readList (readNat indexWord) cs).map fun r => ({ a with inputs := r.1 }, r.2)
  | .outputBindings, a => fun cs =>
    (readList (readNat indexWord) cs).map fun r => ({ a with outputBindings := r.1 }, r.2)
  | .targets, a => fun cs =>
    (readList (readNat indexWord) cs).map fun r => ({ a with targets := r.1 }, r.2)
  | .rate, a => fun cs =>
    (readOptional (readNat indexWord) cs).map fun r => ({ a with rate := r.1 }, r.2)

def shape (p : Precision) : Shape Field (Arena p) where
  title := "struct TrainingContext"
  fields := fields
  name := Field.name
  required := false
  read := readField

/-- Every slot that something is bound to, in the order in which they are checked. -/
def boundSlots (a : Arena p) : List Nat :=
  a.inputs ++ a.outputBindings ++ a.targets ++ a.rate.toList ++ a.namedSlots.map Prod.snd

/-- Checks slots against the memory; the first that is missing is the error. -/
def checkSlots (a : Arena p) : List Nat → Except ArenaError Unit
  | [] => .ok ()
  | index :: rest =>
    match a.checkIndex index with
    | .error e => .error e
    | .ok () => checkSlots a rest

def check (a : Arena p) : Except SnapshotError (Arena p) :=
  match checkSlots a (boundSlots a) with
  | .error e => .error (.unbound e)
  | .ok () =>
    if a.outputs.length = a.outputBindings.length then .ok a
    else .error (.outputCount a.outputs.length a.outputBindings.length)

def ofText (p : Precision) (text : String) : Except SnapshotError (Arena p) :=
  match readDocument ((shape p).reader Arena.empty) text with
  | .error problem => .error (.malformed problem)
  | .ok a => check a

end NeuronKernels.ArenaSnapshot
