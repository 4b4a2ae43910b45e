import NeuronKernels.BlankCharacters
import NeuronKernels.ComputeDevice
import NeuronKernels.DecimalText
import NeuronKernels.KernelLayout

/-!
# A simulated device

A device for trying networks out. It writes down every call, can be told to fail at the n-th call of
a kind, and runs a simple program of its own: the kernel with handle `h` adds `h + 1` to one slot
and then copies the arena, over and over, into the outputs.
-/

namespace NeuronKernels.SimulatedDevice
open BinaryFloat ComputeDevice KernelUnit NetworkErrors

inductive CallKind
  | build
  | handle
  | upload
  | stageFeed
  | stageTrain
  | enqueue
  | finish
  | readOutputs
  | readMemory
  deriving DecidableEq

def CallKind.word : CallKind → String
  | .build => "build"
  | .handle => "handle"
  | .upload => "upload"
  | .stageFeed => "stage_feed"
  | .stageTrain => "stage_train"
  | .enqueue => "enqueue"
  | .finish => "finish"
  | .readOutputs => "read_outputs"
  | .readMemory => "read_memory"

def CallKind.all : List CallKind :=
  [.build, .handle, .upload, .stageFeed, .stageTrain, .enqueue, .finish, .readOutputs, .readMemory]

def CallKind.ofWord (word : String) : Option CallKind := CallKind.all.find? fun k => k.word == word

inductive FaultKind
  | dispatch
  | buildFailure
  | notBuilt
  | unavailable
  deriving DecidableEq

/-- A failure at the `nth` call of a kind, counted from one. -/
structure Fault where
  call : CallKind
  nth : Nat
  kind : FaultKind
  deriving DecidableEq

def Fault.error (f : Fault) : NetworkError :=
  let reason := "injected " ++ f.call.word
  match f.kind with
  | .dispatch => .dispatch reason
  | .buildFailure => .buildFailure reason
  | .notBuilt => .notBuilt
  | .unavailable => .accelerationUnavailable reason

/-- The state of a simulated device. `history` holds the kinds of all calls so far. -/
structure Simulated (p : Precision) where
  names : List String
  memory : List (Value p)
  outputs : List (Value p)
  faults : List Fault
  checksLayout : Bool
  history : List CallKind
  log : List String

/-- A device that has seen the calls of `history`. -/
def Simulated.start (p : Precision) (faults : List Fault) (checksLayout : Bool)
    (history : List CallKind) : Simulated p :=
  ⟨[], [], [], faults, checksLayout, history, []⟩

variable {p : Precision}

def valuesText (vs : List (Value p)) : String :=
  TextPieces.joinWith "," (vs.map DecimalText.plainText)

def trimEnd (s : String) : String :=
  String.ofList (BlankCharacters.dropBlanks s.toList.reverse).reverse

namespace Simulated

def nameOf (d : Simulated p) (handle : Nat) : String := (d.names[handle]?).getD ""

def record (kind : CallKind) (details : String) (d : Simulated p) : Simulated p :=
  { d with log := d.log ++ [trimEnd (kind.word ++ " " ++ details)], history := kind :: d.history }

/-- The failure that is due at the latest call, if any. -/
def due (d : Simulated p) : Option Fault :=
  match d.history with
  | [] => none
  | kind :: _ => d.faults.find? fun f => f.call == kind && f.nth == d.history.count kind

/-- A call: it is written down, and done unless a failure is due. -/
def call {α : Type} (kind : CallKind) (details : String)
    (act : Simulated p → Except NetworkError α × Simulated p) (d : Simulated p) :
    Except NetworkError α × Simulated p :=
  let d := d.record kind details
  match d.due with
  | some f => (.error f.error, d)
  | none => act d

/-- Looks at the layout of sources, up to the first that is wrong. -/
def checkLayouts (p : Precision) : List Source → Except NetworkError Unit
  | [] => .ok ()
  | s :: rest =>
    match KernelLayout.Draft.ofSource p s with
    | none => .error (.buildFailure (KernelLayout.layoutDiagnostics s))
    | some _ => checkLayouts p rest

def build (sources : List Source) (d : Simulated p) : Except NetworkError Unit × Simulated p :=
  match if d.checksLayout then checkLayouts p sources else .ok () with
  | .error e => (.error e, d)
  | .ok () => (.ok (), { d with names := sources.map Source.entryPoint })

def run (handle : Nat) (d : Simulated p) : Simulated p :=
  let n := d.memory.length
  if n = 0 then d
  else
    let memory := d.memory.modify (handle % n) fun v => v.add (Value.ofNat (handle + 1))
    { d with
      memory := memory
      outputs := d.outputs.mapIdx fun j v => (memory[j % n]?).getD v }

def order : Order p → Simulated p → Except NetworkError Unit × Simulated p
  | .build sources =>
    call .build (TextPieces.joinWith "," (sources.map Source.entryPoint)) (build sources)
  | .upload memory =>
    call .upload (valuesText memory) fun d => (.ok (), { d with memory := memory })
  | .stageFeed inputs outputs =>
    call .stageFeed ("[" ++ valuesText inputs ++ "] " ++ toString outputs) fun d =>
      (.ok (), { d with outputs := List.replicate outputs Value.zero })
  | .stageTrain rate targets =>
    call .stageTrain (DecimalText.plainText rate ++ " [" ++ valuesText targets ++ "]") fun d =>
      (.ok (), d)
  | .enqueue handle => fun d => call .enqueue (d.nameOf handle) (fun d => (.ok (), d.run handle)) d
  | .finish => call .finish "" fun d => (.ok (), d)

def handleOf (name : String) : Simulated p → Except NetworkError Nat × Simulated p :=
  call .handle name fun d =>
    match d.names.findIdx? (· == name) with
    | some handle => (.ok handle, d)
    | none => (.error (.unknownKernel name), d)

/-- Copies a buffer over values; a call that fails leaves them alone. -/
def read (kind : CallKind) (buffer : Simulated p → List (Value p)) (values : List (Value p))
    (d : Simulated p) : (Except NetworkError Unit × List (Value p)) × Simulated p :=
  match call kind "" (fun d => (.ok (buffer d), d)) d with
  | (.error e, d) => ((.error e, values), d)
  | (.ok found, d) => ((.ok (), found), d)

end Simulated

instance (p : Precision) : Device p (Simulated p) where
  name _ := "Fake"
  accelerated _ := true
  order := Simulated.order
  handleOf := Simulated.handleOf
  outputs := Simulated.read .readOutputs Simulated.outputs
  memory := Simulated.read .readMemory Simulated.memory

end NeuronKernels.SimulatedDevice
