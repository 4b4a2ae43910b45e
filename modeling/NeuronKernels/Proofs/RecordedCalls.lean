import Mathlib.Data.List.Induction
import NeuronKernels.Proofs.NetworkRuns

/-!
# The calls that a device gets

A recorder passes every call on to a device and writes it down with its answer. A run with recorders
in place of the devices is the same run (`erase_run`), so what a recorder has written down is what
the device gets. Both this and the fact that a run adds its calls one operation after the other
(`received_concat`) are cases of one: maps that commute with every call commute with runs
(`Faithful.after`).
-/

namespace NeuronKernels.RecordedCalls
open BinaryFloat ComputeDevice KernelNetwork KernelUnit MemoryArena NetworkErrors NetworkFiles
open NetworkRuns NetworkRuns.Operation StoredNetwork

variable {p : Precision} {δ ε : Type}

/-- A call of a device. Of a buffer that is read only the length matters. -/
inductive Call (p : Precision)
  | order (o : Order p)
  | handleOf (name : String)
  | outputs (count : Nat)
  | memory (count : Nat)
  deriving DecidableEq

/-- A call with its answer: a failure, a handle, or nothing. -/
structure Exchange (p : Precision) where
  call : Call p
  answer : Except NetworkError (Option Nat)

/-- A device with the calls that it has had. -/
structure Recorder (p : Precision) (δ : Type) where
  device : δ
  log : List (Exchange p)

namespace Recorder

/-- A recorder that has nothing written down. -/
def fresh (d : δ) : Recorder p δ := ⟨d, []⟩

def note (r : Recorder p δ) (call : Call p) (answer : Except NetworkError (Option Nat)) (d : δ) :
    Recorder p δ := ⟨d, r.log ++ [⟨call, answer⟩]⟩

end Recorder

instance [Device p δ] : Device p (Recorder p δ) where
  name r := Device.name p r.device
  accelerated r := Device.accelerated p r.device
  order o r :=
    let (answer, d) := Device.order o r.device
    (answer, r.note (.order o) (answer.map fun _ => none) d)
  handleOf name r :=
    let (answer, d) := Device.handleOf p name r.device
    (answer, r.note (.handleOf name) (answer.map some) d)
  outputs values r :=
    let ((answer, found), d) := Device.outputs values r.device
    ((answer, found), r.note (.outputs values.length) (answer.map fun _ => none) d)
  memory values r :=
    let ((answer, found), d) := Device.memory values r.device
    ((answer, found), r.note (.memory values.length) (answer.map fun _ => none) d)

/-- The map commutes with everything that can be asked of a device. -/
structure Faithful (p : Precision) [Device p δ] [Device p ε] (f : δ → ε) : Prop where
  name : ∀ d, Device.name p (f d) = Device.name p d
  accelerated : ∀ d, Device.accelerated p (f d) = Device.accelerated p d
  order : ∀ (o : Order p) d, Device.order o (f d) = Prod.map id f (Device.order o d)
  handleOf : ∀ name d, Device.handleOf p name (f d) = Prod.map id f (Device.handleOf p name d)
  outputs : ∀ (values : List (Value p)) d,
    Device.outputs values (f d) = Prod.map id f (Device.outputs values d)
  memory : ∀ (values : List (Value p)) d,
    Device.memory values (f d) = Prod.map id f (Device.memory values d)

theorem faithful_device [Device p δ] : Faithful p (Recorder.device : Recorder p δ → δ) where
  name _ := rfl
  accelerated _ := rfl
  order _ _ := rfl
  handleOf _ _ := rfl
  outputs _ _ := rfl
  memory _ _ := rfl

/-- An attachment with its device mapped. -/
def carry (f : δ → ε) : Attachment δ → Attachment ε
  | .portable => .portable
  | .attached d => .attached (f d)

def carryNetwork (f : δ → ε) (n : Network p δ) : Network p ε :=
  ⟨n.arena, n.feedKernels, n.trainKernels, carry f n.device⟩

/-- An operation with the device that it attaches mapped. -/
def carryOperation (f : δ → ε) : Operation p δ → Operation p ε
  | .attach device => .attach (carry f device)
  | .compile => .compile
  | .feed inputs => .feed inputs
  | .train rate targets => .train rate targets
  | .loadRecord r => .loadRecord r
  | .loadText text => .loadText text
  | .loadFile tree path => .loadFile tree path
  | .edit change => .edit change

namespace Faithful
variable [Device p δ] [Device p ε] {f : δ → ε}

theorem attachment (hf : Faithful p f) : Faithful p (carry f) where
  name
    | .portable => rfl
    | .attached d => hf.name d
  accelerated
    | .portable => rfl
    | .attached d => hf.accelerated d
  order o
    | .portable => rfl
    | .attached d => congrArg Attachment.wrap (hf.order o d)
  handleOf name
    | .portable => rfl
    | .attached d => congrArg Attachment.wrap (hf.handleOf name d)
  outputs values
    | .portable => rfl
    | .attached d => congrArg Attachment.wrap (hf.outputs values d)
  memory values
    | .portable => rfl
    | .attached d => congrArg Attachment.wrap (hf.memory values d)

theorem obey (hf : Faithful p f) (os : List (Order p)) (d : δ) :
    ComputeDevice.obey os (f d) = Prod.map id f (ComputeDevice.obey os d) := by
  induction os generalizing d with
  | nil => rfl
  | cons o os ih =>
    rw [obey_cons, obey_cons]
    exact andThen_map (hf.order o d) (fun _ => rfl) fun _ s => ih s

theorem handlesOf (hf : Faithful p f) (names : List String) (d : δ) :
    ComputeDevice.handlesOf p names (f d) =
      Prod.map id f (ComputeDevice.handlesOf p names d) := by
  induction names generalizing d with
  | nil => rfl
  | cons name names ih =>
    rw [handlesOf_cons, handlesOf_cons]
    exact andThen_map (hf.handleOf name d) (fun _ => rfl) fun _ s =>
      andThen_map (ih s) (fun _ => rfl) fun _ _ => rfl

theorem dispatch (hf : Faithful p f) (ks : List Kernel) (d : Attachment δ) :
    Network.dispatch (p := p) ks (carry f d) =
      Prod.map id (carry f) (Network.dispatch (p := p) ks d) := by
  induction ks generalizing d with
  | nil => rfl
  | cons k ks ih =>
    cases hk : k.handle with
    | none => simp [Network.dispatch, hk]
    | some handle =>
      rw [dispatch_cons hk, dispatch_cons hk]
      exact andThen_map (hf.attachment.obey _ d) (fun _ => rfl) fun _ s => ih s

theorem runPass (hf : Faithful p f) (n : Network p δ) (arguments : Order p) (pass : Pass) :
    (carryNetwork f n).runPass arguments pass =
      Prod.map id (carry f) (n.runPass arguments pass) := by
  have hk : (carryNetwork f n).kernelsOf pass = n.kernelsOf pass := by cases pass <;> rfl
  rw [runPass_eq, runPass_eq, hk]
  exact andThen_map (hf.attachment.obey _ n.device) (fun _ => rfl) fun _ s => hf.dispatch _ s

theorem fetchOutputs (hf : Faithful p f) (n : Network p δ) :
    (carryNetwork f n).fetchOutputs = Prod.map id (carryNetwork f) n.fetchOutputs := by
  have h := hf.attachment.outputs n.arena.outputs n.device
  simp only [Network.fetchOutputs, carryNetwork, h]
  rfl

theorem fetchMemory (hf : Faithful p f) (n : Network p δ) :
    (carryNetwork f n).fetchMemory = Prod.map id (carryNetwork f) n.fetchMemory := by
  have h := hf.attachment.memory n.arena.memory n.device
  simp only [Network.fetchMemory, carryNetwork, h]
  rfl

theorem executeFeed (hf : Faithful p f) (n : Network p δ) (inputs : List (Value p)) :
    (carryNetwork f n).executeFeed inputs =
      Prod.map id (carryNetwork f) (n.executeFeed inputs) := by
  rw [executeFeed_eq, executeFeed_eq]
  refine andThen_map (hf.runPass (cleared n) _ .feed) (fun _ => rfl) fun _ d => ?_
  refine andThen_map (hf.fetchOutputs (onto (cleared n) d)) (fun _ => rfl) fun _ m => ?_
  exact andThen_map (hf.fetchMemory m) (fun _ => rfl) fun _ _ => rfl

theorem executeTrain (hf : Faithful p f) (n : Network p δ) (rate : Value p)
    (targets : List (Value p)) :
    (carryNetwork f n).executeTrain rate targets =
      Prod.map id (carryNetwork f) (n.executeTrain rate targets) := by
  rw [executeTrain_eq, executeTrain_eq]
  exact andThen_map (hf.runPass n _ .train) (fun _ => rfl) fun _ d => hf.fetchMemory (onto n d)

theorem program (hf : Faithful p f) (n : Network p δ) :
    NetworkRuns.program (carryNetwork f n) = Prod.map id (carry f) (NetworkRuns.program n) := by
  refine andThen_map (hf.attachment.order _ n.device) (fun _ => rfl) fun _ d => ?_
  refine andThen_map (hf.attachment.handlesOf _ d) (fun _ => rfl) fun _ d => ?_
  exact andThen_map (hf.attachment.order _ d) (fun _ => rfl) fun _ _ => rfl

theorem isExecutable (hf : Faithful p f) (n : Network p δ) (pass : Pass) :
    (carryNetwork f n).isExecutable pass = n.isExecutable pass := by
  have ha : Device.accelerated p (carryNetwork f n).device = Device.accelerated p n.device :=
    hf.attachment.accelerated n.device
  cases pass <;> simp only [Network.isExecutable, ha] <;> rfl

theorem feed (hf : Faithful p f) (n : Network p δ) (inputs : List (Value p)) :
    ((carryNetwork f n).feed inputs).result = (n.feed inputs).result ∧
      ((carryNetwork f n).feed inputs).network = carryNetwork f (n.feed inputs).network := by
  have hx := hf.isExecutable n .feed
  cases he : n.isExecutable .feed with
  | false =>
    rw [he] at hx
    simp [feed_idle he, feed_idle hx]
  | true =>
    rw [he] at hx
    simp [feed_executed he, feed_executed hx, hf.executeFeed]

theorem train (hf : Faithful p f) (n : Network p δ) (rate : Value p) (targets : List (Value p)) :
    ((carryNetwork f n).train rate targets).result = (n.train rate targets).result ∧
      ((carryNetwork f n).train rate targets).network =
        carryNetwork f (n.train rate targets).network := by
  have hx := hf.isExecutable n .train
  cases he : n.isExecutable .train with
  | false =>
    rw [he] at hx
    simp [train_idle he, train_idle hx]
  | true =>
    rw [he] at hx
    simp [train_executed he, train_executed hx, hf.executeTrain]

theorem compile (hf : Faithful p f) (n : Network p δ) :
    (carryNetwork f n).compile.result = n.compile.result ∧
      (carryNetwork f n).compile.network = carryNetwork f n.compile.network := by
  have hx : Device.accelerated p (carryNetwork f n).device = Device.accelerated p n.device :=
    hf.attachment.accelerated n.device
  have hn : (carryNetwork f n).deviceName = n.deviceName := hf.attachment.name n.device
  have hp : NetworkRuns.program (carryNetwork f n).unbind =
      Prod.map id (carry f) (NetworkRuns.program n.unbind) := hf.program n.unbind
  cases ha : Device.accelerated p n.device with
  | false =>
    obtain ⟨hr, he⟩ := compile_refused ha
    obtain ⟨hr', he'⟩ := compile_refused (hx.trans ha)
    exact ⟨by rw [hr, hr', hn], by rw [he, he']; rfl⟩
  | true =>
    obtain ⟨hr, he⟩ := compile_accelerated ha
    obtain ⟨hr', he'⟩ := compile_accelerated (hx.trans ha)
    rw [hr, hr', he, he', hp]
    rcases NetworkRuns.program n.unbind with ⟨e | handles, d⟩ <;> exact ⟨rfl, rfl⟩

theorem after (hf : Faithful p f) (op : Operation p δ) (n : Network p δ) :
    (carryOperation f op).after (carryNetwork f n) = carryNetwork f (op.after n) := by
  have text_after : ∀ text, ((carryNetwork f n).loadText text).network =
      carryNetwork f (n.loadText text).network := by
    intro text
    cases h : NetworkRecord.ofText text with
    | error e => simp [Network.loadText, h]
    | ok r =>
      simp only [Network.loadText, h]
      rfl
  cases op with
  | attach device => rfl
  | compile => exact (hf.compile n).2
  | feed inputs => exact (hf.feed n inputs).2
  | train rate targets => exact (hf.train n rate targets).2
  | loadRecord r => rfl
  | loadText text => exact text_after text
  | loadFile tree path =>
    cases h : FileTree.readText tree path with
    | error cause => simp [carryOperation, Operation.after, loadNetwork, h]
    | ok text => simpa [carryOperation, Operation.after, loadNetwork, h] using text_after text
  | edit change => rfl

end Faithful

/-- The log of the recorder that is attached, if one is. -/
def logOf : Attachment (Recorder p δ) → Option (List (Exchange p))
  | .portable => none
  | .attached r => some r.log

/-- The log of the recorder of a network. -/
def networkLog (n : Network p (Recorder p δ)) : Option (List (Exchange p)) := logOf n.device

/-- A network with a recorder around its device. -/
def record (n : Network p δ) : Network p (Recorder p δ) := carryNetwork Recorder.fresh n

/-- An operation that puts a recorder around the device that it attaches. -/
def recording : Operation p δ → Operation p (Recorder p δ) := carryOperation Recorder.fresh

theorem erase_record (n : Network p δ) : carryNetwork Recorder.device (record n) = n := by
  rcases n with ⟨a, feed, train, d⟩
  cases d <;> rfl

theorem erase_recording (op : Operation p δ) :
    carryOperation Recorder.device (recording op) = op := by
  cases op with
  | attach device => cases device <;> rfl
  | _ => rfl

theorem erase_network (origin : Origin p) :
    carryNetwork Recorder.device (origin.network : Network p (Recorder p δ)) =
      origin.network := by
  cases origin <;> rfl

/-- The calls that the device of a network gets from one operation. -/
def calls [Device p δ] (op : Operation p δ) (n : Network p δ) : List (Exchange p) :=
  (networkLog ((recording op).after (record n))).getD []

/-- The calls that the last device of a run has had. -/
def received [Device p δ] (ops : List (Operation p δ)) (origin : Origin p) : List (Exchange p) :=
  (networkLog (run (ops.map recording) (origin.network : Network p (Recorder p δ)))).getD []

section
variable [Device p δ]

theorem erase_after (op : Operation p δ) (n : Network p (Recorder p δ)) :
    carryNetwork Recorder.device ((recording op).after n) =
      op.after (carryNetwork Recorder.device n) := by
  have h := faithful_device.after (recording op) n
  rw [erase_recording] at h
  exact h.symm

/-- Recorders do not change a run. -/
theorem erase_run (ops : List (Operation p δ)) (origin : Origin p) :
    carryNetwork Recorder.device
        (run (ops.map recording) (origin.network : Network p (Recorder p δ))) =
      run ops origin.network := by
  induction ops using List.reverseRecOn with
  | nil => exact erase_network origin
  | append_singleton ops op ih =>
    rw [List.map_append, List.map_singleton, run_concat, run_concat, erase_after, ih]

/-- A recorder whose log stands behind other calls. -/
def behind (log : List (Exchange p)) (r : Recorder p δ) : Recorder p δ := ⟨r.device, log ++ r.log⟩

theorem faithful_behind (log : List (Exchange p)) :
    Faithful p (behind log : Recorder p δ → Recorder p δ) where
  name _ := rfl
  accelerated _ := rfl
  order o r := by simp [Device.order, behind, Recorder.note]
  handleOf name r := by simp [Device.handleOf, behind, Recorder.note]
  outputs values r := by simp [Device.outputs, behind, Recorder.note]
  memory values r := by simp [Device.memory, behind, Recorder.note]

theorem received_attach (ops : List (Operation p δ)) (device : Attachment δ) (origin : Origin p) :
    received (ops ++ [.attach device]) origin = [] := by
  rw [received, List.map_append, List.map_singleton, run_concat]
  cases device <;> rfl

/-- The calls of a run come one operation after the other. -/
theorem received_concat (ops : List (Operation p δ)) {op : Operation p δ}
    (h : ∀ device, op ≠ .attach device) (origin : Origin p) :
    received (ops ++ [op]) origin = received ops origin ++ calls op (run ops origin.network) := by
  have he := erase_run ops origin
  rw [received, received, List.map_append, List.map_singleton, run_concat, ← he, calls]
  generalize run (ops.map recording) (origin.network : Network p (Recorder p δ)) = n
  rcases n with ⟨a, feed, train, d⟩
  cases d with
  | portable => rfl
  | attached r =>
    have hop : carryOperation (behind r.log) (recording op) = recording op := by
      cases op with
      | attach device => exact absurd rfl (h device)
      | _ => rfl
    have hn : carryNetwork (behind r.log) (record ⟨a, feed, train, .attached r.device⟩) =
        ⟨a, feed, train, .attached r⟩ := by
      simp [carryNetwork, record, carry, behind, Recorder.fresh]
    have hne : ∀ device, recording op ≠ .attach device := by
      cases op with
      | attach device => exact absurd rfl (h device)
      | _ => exact fun _ hr => by cases hr
    obtain ⟨r', hr'⟩ :=
      (called_after hne (record ⟨a, feed, train, .attached r.device⟩)).attached
    have hm := (faithful_behind r.log).after (recording op)
      (record ⟨a, feed, train, .attached r.device⟩)
    rw [hop, hn] at hm
    change (networkLog ((recording op).after ⟨a, feed, train, .attached r⟩)).getD [] =
      r.log ++ (networkLog ((recording op).after
        (record ⟨a, feed, train, .attached r.device⟩))).getD []
    rw [hm]
    simp [networkLog, carryNetwork, hr', carry, logOf, behind]

end

end NeuronKernels.RecordedCalls
