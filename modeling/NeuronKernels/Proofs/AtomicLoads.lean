import NeuronKernels.Proofs.CallBlocks

/-!
# Loads that fail and loads that replace

A load reads everything before it touches the network (`load_eq`). So a failure leaves the network
as it was, built or not, and what follows is as if nothing had been loaded. After a success no
kernel has a handle, and only a compiling that goes well gives handles again (`noneBuilt_after`); in a row
of operations without one both passes do nothing (`idle_run`), although the device may still hold
the program of the kernels before.
-/

namespace NeuronKernels.AtomicLoads
open BinaryFloat CallBlocks ComputeDevice FileTree KernelNetwork NetworkErrors NetworkFiles
open NetworkRuns NetworkRuns.Operation RecordedCalls StoredNetwork

variable {p : Precision} {δ : Type}

/-- Where stored kernels are loaded from. -/
inductive Storage
  | text (content : String)
  | file (tree : Tree) (path : String)

namespace Storage

/-- The stored kernels of a storage: a file has to be there and to be text, and the text has to be
that of a stored network. -/
def decoded : Storage → Except NetworkError NetworkRecord
  | .text content => NetworkRecord.ofText content
  | .file tree path =>
    match readText tree path with
    | .error cause => .error (.file cause)
    | .ok content => NetworkRecord.ofText content

def load (storage : Storage) (n : Network p δ) : Outcome p δ Unit :=
  match storage with
  | .text content => n.loadText content
  | .file tree path => loadNetwork tree path n

/-- The same as one of the operations. -/
def operation : Storage → Operation p δ
  | .text content => .loadText content
  | .file tree path => .loadFile tree path

theorem load_eq (storage : Storage) (n : Network p δ) :
    storage.load n =
      match storage.decoded with
      | .error e => ⟨.error e, n, []⟩
      | .ok r => ⟨.ok (), n.loadRecord r, [Network.loadedEvent r]⟩ := by
  cases storage with
  | text content => rfl
  | file tree path =>
    simp only [load, loadNetwork, decoded]
    cases readText tree path with
    | error cause => rfl
    | ok content => rfl

theorem silent_operation (storage : Storage) : (storage.operation : Operation p δ).Silent := by
  cases storage <;> trivial

theorem after_operation [Device p δ] (storage : Storage) (n : Network p δ) :
    storage.operation.after n = (storage.load n).network := by
  cases storage <;> rfl

end Storage

section
variable [Device p δ]

/-- The calls that devices get from operations in a row. -/
def callsInRow : List (Operation p δ) → Network p δ → List (Exchange p)
  | [], _ => []
  | op :: ops, n => calls op n ++ callsInRow ops (op.after n)

/-- No compiling in the row goes well. -/
def NeverCompiled : List (Operation p δ) → Network p δ → Prop
  | [], _ => True
  | op :: ops, n => (op = .compile → n.compile.result ≠ .ok ()) ∧ NeverCompiled ops (op.after n)

/-- Both passes do nothing: they succeed, the forward pass without outputs, and neither the network
nor its device notices. -/
structure Idle (n : Network p δ) : Prop where
  feed : ∀ inputs, (n.feed inputs).result = .ok [] ∧ (n.feed inputs).network = n ∧
    calls (.feed inputs) n = []
  train : ∀ rate targets, (n.train rate targets).result = .ok () ∧
    (n.train rate targets).network = n ∧ calls (.train rate targets) n = []

theorem idle_of_noneBuilt {n : Network p δ} (h : NoneBuilt n) : Idle n := by
  have hf : n.isExecutable .feed = false := isExecutable_of_noneBuilt h .feed
  have ht : n.isExecutable .train = false := isExecutable_of_noneBuilt h .train
  constructor
  · intro inputs
    obtain ⟨hr, hn⟩ := feed_idle hf inputs
    exact ⟨hr, hn, calls_feed_idle hf inputs⟩
  · intro rate targets
    obtain ⟨hr, hn⟩ := train_idle ht rate targets
    exact ⟨hr, hn, calls_train_idle ht rate targets⟩

theorem noneBuilt_after {op : Operation p δ} {n : Network p δ} (h : NoneBuilt n)
    (hc : op = .compile → n.compile.result ≠ .ok ()) : NoneBuilt (op.after n) := by
  obtain ⟨device, rfl⟩ | rfl | ⟨r, hr⟩ | hq := op.cases_after
  · exact noneBuilt_unbind n
  · cases hresult : n.compile.result with
    | error e => exact noneBuilt_of_compile_error hresult
    | ok _ => exact absurd hresult (hc rfl)
  · rw [after_of_record hr]
    exact noneBuilt_loadRecord n r
  · exact noneBuilt_touched h (hq.touched n)

theorem noneBuilt_run {ops : List (Operation p δ)} {n : Network p δ} (h : NoneBuilt n)
    (hops : NeverCompiled ops n) : NoneBuilt (run ops n) := by
  induction ops generalizing n with
  | nil => exact h
  | cons op ops ih =>
    obtain ⟨hop, hrest⟩ := hops
    exact ih (noneBuilt_after h hop) hrest

theorem idle_run {ops : List (Operation p δ)} {n : Network p δ} (h : NoneBuilt n)
    (hops : NeverCompiled ops n) : Idle (run ops n) :=
  idle_of_noneBuilt (noneBuilt_run h hops)

theorem calls_of_noneBuilt {op : Operation p δ} {n : Network p δ} (h : NoneBuilt n)
    (hc : op ≠ .compile) : calls op n = [] := by
  by_cases hs : op.Silent
  · exact calls_silent hs n
  · cases op with
    | attach device => cases device <;> rfl
    | compile => exact absurd rfl hc
    | feed inputs => exact ((idle_of_noneBuilt h).feed inputs).2.2
    | train rate targets => exact ((idle_of_noneBuilt h).train rate targets).2.2
    | _ => exact absurd trivial hs

theorem callsInRow_of_noneBuilt {ops : List (Operation p δ)} {n : Network p δ} (h : NoneBuilt n)
    (hops : ∀ op ∈ ops, op ≠ .compile) : callsInRow ops n = [] := by
  induction ops generalizing n with
  | nil => rfl
  | cons op ops ih =>
    obtain ⟨hop, hrest⟩ := List.forall_mem_cons.mp hops
    have hafter : NoneBuilt (op.after n) := noneBuilt_after h fun hc => absurd hc hop
    rw [callsInRow, calls_of_noneBuilt h hop, ih hafter hrest, List.append_nil]

/-- A load that has failed: the network with its kernels and handles, its arena and its device is
the one before, the device has had no call, and any operations give afterwards what they would have
given without the load. -/
structure Refused (storage : Storage) (n : Network p δ) (e : NetworkError) : Prop where
  result : (storage.load n).result = .error e
  network : (storage.load n).network = n
  calls : calls storage.operation n = []
  feed : ∀ inputs, (storage.load n).network.feed inputs = n.feed inputs
  train : ∀ rate targets, (storage.load n).network.train rate targets = n.train rate targets
  later : ∀ ops, run (storage.operation :: ops) n = run ops n
  laterCalls : ∀ ops, callsInRow (storage.operation :: ops) n = callsInRow ops n

/-- A load that has succeeded: the kernels are the stored ones without handles, and arena and device
are as before. Until a compiling goes well, whatever else is done, both passes do nothing; as long
as nothing is compiled, no device gets a call. -/
structure Replaced (storage : Storage) (n : Network p δ) (r : NetworkRecord) : Prop where
  result : (storage.load n).result = .ok ()
  feedKernels : (storage.load n).network.feedKernels = r.feed.map fun k => k.toKernel .feed
  trainKernels : (storage.load n).network.trainKernels = r.train.map fun k => k.toKernel .train
  noneBuilt : NoneBuilt (storage.load n).network
  arena : (storage.load n).network.arena = n.arena
  device : (storage.load n).network.device = n.device
  calls : calls storage.operation n = []
  idle : ∀ ops, NeverCompiled ops (storage.load n).network → Idle (run (storage.operation :: ops) n)
  uncalled : ∀ ops, (∀ op ∈ ops, op ≠ .compile) → callsInRow (storage.operation :: ops) n = []

theorem refused_of_decoded {storage : Storage} {e : NetworkError} (h : storage.decoded = .error e)
    (n : Network p δ) : Refused storage n e := by
  have hload : storage.load n = ⟨.error e, n, []⟩ := by rw [storage.load_eq, h]
  have hnetwork : (storage.load n).network = n := by rw [hload]
  have hafter : storage.operation.after n = n := (storage.after_operation n).trans hnetwork
  have hcalls : calls storage.operation n = [] := calls_silent storage.silent_operation n
  refine
    { result := by rw [hload]
      network := hnetwork
      calls := hcalls
      feed := fun inputs => by rw [hnetwork]
      train := fun rate targets => by rw [hnetwork]
      later := fun ops => ?_
      laterCalls := fun ops => ?_ }
  · rw [run, List.foldl_cons, hafter, run]
  · rw [callsInRow, hcalls, hafter, List.nil_append]

theorem replaced_of_decoded {storage : Storage} {r : NetworkRecord} (h : storage.decoded = .ok r)
    (n : Network p δ) : Replaced storage n r := by
  have hload : storage.load n = ⟨.ok (), n.loadRecord r, [Network.loadedEvent r]⟩ := by
    rw [storage.load_eq, h]
  have hnetwork : (storage.load n).network = n.loadRecord r := by rw [hload]
  have hnone : NoneBuilt (storage.load n).network := by
    rw [hnetwork]
    exact noneBuilt_loadRecord n r
  have hcalls : calls storage.operation n = [] := calls_silent storage.silent_operation n
  refine
    { result := by rw [hload]
      feedKernels := by rw [hnetwork]; rfl
      trainKernels := by rw [hnetwork]; rfl
      noneBuilt := hnone
      arena := by rw [hnetwork]; rfl
      device := by rw [hnetwork]; rfl
      calls := hcalls
      idle := fun ops hops => ?_
      uncalled := fun ops hops => ?_ }
  · rw [run, List.foldl_cons, storage.after_operation]
    exact idle_run hnone hops
  · rw [callsInRow, hcalls, storage.after_operation, callsInRow_of_noneBuilt hnone hops,
      List.append_nil]

example (n : Network p δ) : Refused (.text "") n (.malformedRecord .syntaxError) :=
  refused_of_decoded rfl n

end

end NeuronKernels.AtomicLoads
