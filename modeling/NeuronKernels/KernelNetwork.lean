import NeuronKernels.ComputeDevice
import NeuronKernels.DeviceSelection
import NeuronKernels.KernelAssembly
import NeuronKernels.StandaloneSource
import NeuronKernels.StoredNetwork

/-!
# Networks

A network owns an arena, the kernels of both passes and a device. Before it can run it is compiled:
the device builds all kernels as one program, and either every kernel gets a handle or none keeps
one. A pass sends the arena to the device, runs its kernels one at a time, and copies the results
back; the arena here is the one that counts. While a network cannot run, its passes do nothing.

Every operation gives its result, the network afterwards, and the events that it reports.
-/

namespace NeuronKernels.KernelNetwork
open BinaryFloat ComputeDevice KernelUnit LogEvent MemoryArena NetworkErrors NeuronGraph
open StoredNetwork

/-- An arena, the kernels of both passes, and a device. -/
structure Network (p : Precision) (δ : Type) where
  arena : Arena p
  feedKernels : List Kernel
  trainKernels : List Kernel
  device : Attachment δ

structure Outcome (p : Precision) (δ α : Type) where
  result : Except NetworkError α
  network : Network p δ
  events : List Event

def eventTarget : String := "kernelnet_kernel_engine::network"

def networkEvent (level : Level) (message : String) (fields : List (String × FieldValue)) :
    Event where
  level := level
  target := eventTarget
  message := message
  fields := fields
  spans := []

def networkSpan (name : String) (fields : List (String × FieldValue)) : Span :=
  ⟨name, eventTarget, fields⟩

namespace Network
variable {p : Precision} {δ : Type}

/-- A network without kernels on the portable device. -/
def ofArena (a : Arena p) : Network p δ := ⟨a, [], [], .portable⟩

def ofGraph (a : Arena p) (g : Graph) (budget : Nat) : Network p δ :=
  ⟨a, KernelAssembly.feedKernels g a budget, KernelAssembly.trainKernels g a budget, .portable⟩

def assemblyEvents (a : Arena p) (g : Graph) (budget : Nat) : List Event :=
  let feed := KernelAssembly.feedKernels g a budget
  let train := KernelAssembly.trainKernels g a budget
  let span := networkSpan "assemble"
    [("neurons", .number g.neuronCount), ("budget", .number budget)]
  (KernelAssembly.events g a budget
    ++ [networkEvent .info "Network assembled"
      [("feed_kernels", .number feed.length), ("train_kernels", .number train.length),
       ("elapsed_us", .elapsed)]]).map (Event.inside span)

/-- All kernels, those of the forward pass first. -/
def kernels (n : Network p δ) : List Kernel := n.feedKernels ++ n.trainKernels

def mapKernels (f : Kernel → Kernel) (n : Network p δ) : Network p δ :=
  { n with feedKernels := n.feedKernels.map f, trainKernels := n.trainKernels.map f }

def unbind (n : Network p δ) : Network p δ := n.mapKernels Kernel.unbind

theorem kernels_mapKernels (f : Kernel → Kernel) (n : Network p δ) :
    (n.mapKernels f).kernels = n.kernels.map f := by
  simp [kernels, mapKernels]

/-- The network on another device, with no kernel built. -/
def withDevice (n : Network p δ) (device : Attachment δ) : Network p δ :=
  { n.unbind with device := device }

/-- The network with its kernels bound to handles, in the order of `kernels`. -/
def bind (n : Network p δ) (handles : List Nat) : Network p δ :=
  { n with
    feedKernels := n.feedKernels.zipWith Kernel.bind handles
    trainKernels := n.trainKernels.zipWith Kernel.bind (handles.drop n.feedKernels.length) }

/-- Whether there are kernels for both passes and all of them are built. -/
def isBuilt (n : Network p δ) : Bool :=
  !n.feedKernels.isEmpty && !n.trainKernels.isEmpty && n.kernels.all Kernel.isBuilt

def kernelsOf (n : Network p δ) : Pass → List Kernel
  | .feed => n.feedKernels
  | .train => n.trainKernels

def toRecord (n : Network p δ) : NetworkRecord :=
  ⟨n.feedKernels.map Kernel.toRecord, n.trainKernels.map Kernel.toRecord⟩

def loadRecord (n : Network p δ) (r : NetworkRecord) : Network p δ :=
  { n with
    feedKernels := r.feed.map fun k => k.toKernel .feed
    trainKernels := r.train.map fun k => k.toKernel .train }

theorem toRecord_unbind (n : Network p δ) : n.unbind.toRecord = n.toRecord := by
  simp [toRecord, unbind, mapKernels, Kernel.toRecord, Kernel.unbind, Function.comp_def]

theorem toRecord_loadRecord (n : Network p δ) (r : NetworkRecord) :
    (n.loadRecord r).toRecord = r := by
  simp [toRecord, loadRecord, toRecord_toKernel, Function.comp_def]

def loadedEvent (r : NetworkRecord) : Event :=
  networkEvent .debug "Network record loaded"
    [("feed_kernels", .number r.feed.length), ("train_kernels", .number r.train.length)]

def ofRecord (a : Arena p) (r : NetworkRecord) : Network p δ := (ofArena a).loadRecord r

/-- Replaces the kernels by those of a stored text; a text that cannot be read changes nothing. -/
def loadText (n : Network p δ) (text : String) : Outcome p δ Unit :=
  match NetworkRecord.ofText text with
  | .error e => ⟨.error e, n, []⟩
  | .ok r => ⟨.ok (), n.loadRecord r, [loadedEvent r]⟩

def standalone (n : Network p δ) (name token : String) (constOnly : Bool) :
    List (String × String) :=
  StandaloneSource.files name token constOnly
    ⟨n.feedKernels, n.trainKernels, n.arena.memory, n.arena.outputs⟩

variable [Device p δ]

def deviceName (n : Network p δ) : String := Device.name p n.device

def compileSpan (n : Network p δ) : Span :=
  networkSpan "compile" [("backend", .quoted n.deviceName)]

def buildEvents : NetworkError → List Event
  | .buildFailure diagnostics =>
    [networkEvent .error "Kernel program build failed" [("diagnostics", .plain diagnostics)]]
  | _ => []

/-- The orders and questions of compiling, in their order: build everything, ask for the handle of
every kernel, send the arena. -/
def buildProgram (n : Network p δ) : Except NetworkError (List Nat) × Attachment δ × List Event :=
  match Device.order (.build (n.kernels.map Kernel.source) : Order p) n.device with
  | (.error e, d) => (.error e, d, buildEvents e)
  | (.ok (), d) =>
    match handlesOf p (n.kernels.map Kernel.entryPoint) d with
    | (.error e, d) => (.error e, d, [])
    | (.ok handles, d) =>
      match Device.order (.upload n.arena.memory) d with
      | (.error e, d) => (.error e, d, [])
      | (.ok (), d) => (.ok handles, d, [])

/-- Builds all kernels. After a failure no kernel is built. -/
def compile (n : Network p δ) : Outcome p δ Unit :=
  let n := n.unbind
  let inSpan := List.map (Event.inside n.compileSpan)
  if !Device.accelerated p n.device then
    ⟨.error (.accelerationUnavailable (n.deviceName ++ " cannot build kernels")), n,
      inSpan [networkEvent .warn
        "No compute device available, only standalone emission is possible" []]⟩
  else
    match n.buildProgram with
    | (.error e, d, events) => ⟨.error e, { n with device := d }, inSpan events⟩
    | (.ok handles, d, events) =>
      ⟨.ok (), { n.bind handles with device := d },
        inSpan (events ++ [networkEvent .info "Network compiled"
          [("kernels", .number n.kernels.length), ("elapsed_ms", .elapsed)]])⟩

def isExecutable (n : Network p δ) (pass : Pass) : Bool :=
  Device.accelerated p n.device && !(n.kernelsOf pass).isEmpty
    && (n.kernelsOf pass).all Kernel.isBuilt

def dispatch : List Kernel → Attachment δ → Except NetworkError Unit × Attachment δ
  | [], d => (.ok (), d)
  | k :: rest, d =>
    match k.handle with
    | none => (.error .notBuilt, d)
    | some handle =>
      match obey [(.enqueue handle : Order p), .finish] d with
      | (.error e, d) => (.error e, d)
      | (.ok (), d) => dispatch rest d

/-- Sends the arena and the arguments of a pass, and runs its kernels. -/
def runPass (n : Network p δ) (arguments : Order p) (pass : Pass) :
    Except NetworkError Unit × Attachment δ :=
  match obey [.upload n.arena.memory, arguments] n.device with
  | (.error e, d) => (.error e, d)
  | (.ok (), d) => dispatch (p := p) (n.kernelsOf pass) d

/-- Has the device write its outputs over those of the arena. -/
def fetchOutputs (n : Network p δ) : Except NetworkError Unit × Network p δ :=
  match Device.outputs n.arena.outputs n.device with
  | ((result, values), d) =>
    (result, { n with device := d, arena := n.arena.overwriteOutputs values })

def fetchMemory (n : Network p δ) : Except NetworkError Unit × Network p δ :=
  match Device.memory n.arena.memory n.device with
  | ((result, values), d) =>
    (result, { n with device := d, arena := n.arena.overwriteMemory values })

def passSpan (n : Network p δ) (pass : Pass) : Span :=
  networkSpan pass.word [("kernels", .number (n.kernelsOf pass).length)]

def completeEvent (n : Network p δ) (pass : Pass) (message : String) : Event :=
  (networkEvent .debug message [("elapsed_us", .elapsed)]).inside (n.passSpan pass)

/-- The forward pass of a network that can run. The outputs are zero until they are copied back. -/
def executeFeed (n : Network p δ) (inputs : List (Value p)) :
    Except NetworkError (List (Value p)) × Network p δ :=
  let n := { n with arena := n.arena.fillOutputs Value.zero }
  match n.runPass (.stageFeed inputs n.arena.outputs.length) .feed with
  | (.error e, d) => (.error e, { n with device := d })
  | (.ok (), d) =>
    match fetchOutputs { n with device := d } with
    | (.error e, n) => (.error e, n)
    | (.ok (), n) =>
      match n.fetchMemory with
      | (.error e, n) => (.error e, n)
      | (.ok (), n) => (.ok n.arena.outputs, n)

/-- The forward pass; it gives no outputs when the network cannot run. -/
def feed (n : Network p δ) (inputs : List (Value p)) : Outcome p δ (List (Value p)) :=
  if !n.isExecutable .feed then
    ⟨.ok [], n, [networkEvent .debug "Feed skipped, network is not executable" []]⟩
  else
    match n.executeFeed inputs with
    | (.error e, after) => ⟨.error e, after, []⟩
    | (.ok outputs, after) => ⟨.ok outputs, after, [n.completeEvent .feed "Feed complete"]⟩

def executeTrain (n : Network p δ) (rate : Value p) (targets : List (Value p)) :
    Except NetworkError Unit × Network p δ :=
  match n.runPass (.stageTrain rate targets) .train with
  | (.error e, d) => (.error e, { n with device := d })
  | (.ok (), d) => fetchMemory { n with device := d }

/-- The training pass; it does nothing when the network cannot run. -/
def train (n : Network p δ) (rate : Value p) (targets : List (Value p)) : Outcome p δ Unit :=
  if !n.isExecutable .train then
    ⟨.ok (), n, [networkEvent .debug "Train skipped, network is not executable" []]⟩
  else
    match n.executeTrain rate targets with
    | (.error e, after) => ⟨.error e, after, []⟩
    | (.ok (), after) => ⟨.ok (), after, [n.completeEvent .train "Train complete"]⟩

end Network

end NeuronKernels.KernelNetwork
