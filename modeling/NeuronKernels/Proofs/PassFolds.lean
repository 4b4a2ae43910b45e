import Mathlib.Data.List.Basic
import NeuronKernels.Proofs.BuiltNetworks
import NeuronKernels.Proofs.DeviceContract

/-!
# Passes as folds

On a device that keeps its promise, a pass in which no call fails comes to the same as running the
effects of its kernels one after the other, from the arena here and, in a forward pass, outputs of
zero. A row of kernels is such a fold over the buffers of the device (`buffers_dispatch`), and a
pass sets every buffer that its kernels use before it starts the first of them (`prepared_feed`,
`prepared_train`), so nothing that was on the device before gets into the result.
-/

namespace NeuronKernels.PassFolds
open BinaryFloat ComputeDevice KernelNetwork KernelUnit MemoryArena NetworkErrors NetworkRuns
open NetworkRuns.Operation RecordedCalls CallBlocks BuiltNetworks DeviceContract SimulatedDevice

variable {p : Precision} {δ : Type}

/-- No call of the operation fails. -/
def FaultFree [Device p δ] (op : Operation p δ) (n : Network p δ) : Prop :=
  ∀ x ∈ calls op n, x.answer.isOk = true

theorem ok_of_follows {α : Type} {block made : List (Exchange p)} {r : Except NetworkError α}
    (h : Follows block made r) (hf : ∀ x ∈ made, x.answer.isOk = true) : ∃ a, r = .ok a := by
  cases r with
  | ok a => exact ⟨a, rfl⟩
  | error e =>
    obtain ⟨done, x, rest, -, rfl⟩ := h
    have hlast := hf ⟨x.call, .error e⟩ (by simp)
    cases hlast

def passHandles (n : Network p δ) (pass : Pass) : List Nat :=
  (n.kernelsOf pass).filterMap Kernel.handle

/-- The kernels of a pass keep to the buffers of that pass. -/
def Serving (effect : Effect p) (n : Network p δ) (pass : Pass) : Prop :=
  ∀ handle ∈ passHandles n pass, effect.serves pass handle

/-- The buffers after the kernels of a forward pass. -/
def feedFold (effect : Effect p) (inputs : List (Value p)) (handles : List Nat) (b : Buffers p) :
    Buffers p :=
  handles.foldl (fun b handle => effect.feed inputs handle b) b

/-- The arena after the kernels of a training pass. -/
def trainFold (effect : Effect p) (rate : Value p) (targets : List (Value p))
    (handles : List Nat) (memory : List (Value p)) : List (Value p) :=
  handles.foldl (fun memory handle => effect.train rate targets handle memory) memory

theorem length_feedFold (effect : Effect p) (inputs : List (Value p)) (handles : List Nat)
    (b : Buffers p) :
    (feedFold effect inputs handles b).memory.length = b.memory.length ∧
      (feedFold effect inputs handles b).outputs.length = b.outputs.length := by
  induction handles generalizing b with
  | nil => exact ⟨rfl, rfl⟩
  | cons handle handles ih =>
    obtain ⟨hm, ho⟩ := ih (effect.feed inputs handle b)
    exact ⟨hm.trans (effect.length_feed_memory inputs handle b),
      ho.trans (effect.length_feed_outputs inputs handle b)⟩

theorem length_trainFold (effect : Effect p) (rate : Value p) (targets : List (Value p))
    (handles : List Nat) (memory : List (Value p)) :
    (trainFold effect rate targets handles memory).length = memory.length := by
  induction handles generalizing memory with
  | nil => rfl
  | cons handle handles ih =>
    exact (ih _).trans (effect.length_train rate targets handle memory)

theorem overlay_eq {source old : List (Value p)} (h : source.length = old.length) :
    Arena.overlay source old = source := by
  simp [Arena.overlay, h.symm]

section
variable [Device p δ] {view : View p (Attachment δ)}

theorem of_obey_pair_eq {first second : Order p} {d e : Attachment δ}
    (h : obey [first, second] d = (.ok (), e)) :
    ∃ c, Device.order first d = (.ok (), c) ∧ Device.order second c = (.ok (), e) := by
  rw [obey_cons] at h
  obtain ⟨_, c, hc, h⟩ := of_andThen_eq h
  rw [obey_cons] at h
  obtain ⟨_, c', hc', h⟩ := of_andThen_eq h
  cases h
  exact ⟨c, hc, hc'⟩

theorem buffers_dispatch (h : Obeys view) {ks : List Kernel} {handles : List Nat}
    (hk : ks.map Kernel.handle = handles.map some) {d e : Attachment δ}
    (hd : Network.dispatch (p := p) ks d = (.ok (), e)) :
    view.buffers e = handles.foldl (fun b handle => view.staged d handle b) (view.buffers d) := by
  induction ks generalizing handles d with
  | nil =>
    obtain rfl : handles = [] := by simpa using hk.symm
    cases hd
    rfl
  | cons k ks ih =>
    cases handles with
    | nil => simp at hk
    | cons handle handles =>
      simp only [List.map_cons, List.cons.injEq] at hk
      rw [dispatch_cons hk.1] at hd
      obtain ⟨_, c, hc, hrest⟩ := of_andThen_eq hd
      obtain ⟨c', henqueue, hfinish⟩ := of_obey_pair_eq hc
      obtain ⟨hb, hs⟩ := h.enqueue henqueue
      obtain ⟨hb', hs'⟩ := h.finish hfinish
      rw [ih hk.2 hrest, hb', hb, hs', hs, List.foldl_cons]

/-- A forward pass starts its kernels with the arena, with outputs of zero, and with its inputs. -/
theorem prepared_feed (h : Obeys view) {memory inputs : List (Value p)} {count : Nat}
    {d e : Attachment δ}
    (hd : obey [.upload memory, .stageFeed inputs count] d = (.ok (), e)) :
    view.buffers e = ⟨memory, List.replicate count Value.zero⟩ ∧
      ∀ handle, (view.program d).serves .feed handle →
        view.staged e handle = (view.program d).feed inputs handle := by
  obtain ⟨c, hupload, hstage⟩ := of_obey_pair_eq hd
  have hprogram : view.program c = view.program d := by
    have hkept := h.program_order (show Running (.upload memory) from trivial) d
    rwa [hupload] at hkept
  obtain ⟨hb, hs⟩ := h.stageFeed hstage
  rw [h.upload hupload] at hb
  rw [hprogram] at hs
  exact ⟨hb, hs⟩

theorem prepared_train (h : Obeys view) {memory targets : List (Value p)} {rate : Value p}
    {d e : Attachment δ}
    (hd : obey [.upload memory, .stageTrain rate targets] d = (.ok (), e)) :
    (view.buffers e).memory = memory ∧
      ∀ handle, (view.program d).serves .train handle → ∀ b,
        (view.staged e handle b).memory = (view.program d).train rate targets handle b.memory := by
  obtain ⟨c, hupload, hstage⟩ := of_obey_pair_eq hd
  have hprogram : view.program c = view.program d := by
    have hkept := h.program_order (show Running (.upload memory) from trivial) d
    rwa [hupload] at hkept
  obtain ⟨hb, hs⟩ := h.stageTrain hstage
  rw [h.upload hupload] at hb
  rw [hprogram] at hs
  exact ⟨hb, hs⟩

theorem buffers_runPass_feed (h : Obeys view) {n : Network p δ} {inputs : List (Value p)}
    {count : Nat} (hk : n.feedKernels.map Kernel.handle = (passHandles n .feed).map some)
    (hserves : Serving (view.program n.device) n .feed) {e : Attachment δ}
    (hr : n.runPass (.stageFeed inputs count) .feed = (.ok (), e)) :
    view.buffers e = feedFold (view.program n.device) inputs (passHandles n .feed)
      ⟨n.arena.memory, List.replicate count Value.zero⟩ := by
  rw [runPass_eq] at hr
  obtain ⟨_, d, hprepared, hdispatch⟩ := of_andThen_eq hr
  obtain ⟨hb, hs⟩ := prepared_feed h hprepared
  rw [buffers_dispatch h hk hdispatch, hb]
  exact List.foldl_ext _ _ _ fun b handle hh => congrFun (hs handle (hserves handle hh)) b

/-- Only the arena counts in a training pass, whatever its kernels do to the outputs. -/
theorem memory_foldl {staged : Nat → Buffers p → Buffers p}
    {step : Nat → List (Value p) → List (Value p)} {handles : List Nat}
    (h : ∀ handle ∈ handles, ∀ b, (staged handle b).memory = step handle b.memory)
    (b : Buffers p) :
    (handles.foldl (fun b handle => staged handle b) b).memory =
      handles.foldl (fun memory handle => step handle memory) b.memory := by
  induction handles generalizing b with
  | nil => rfl
  | cons handle handles ih =>
    have hrest := ih (fun other ho => h other (by simp [ho])) (staged handle b)
    rw [List.foldl_cons, List.foldl_cons, hrest, h handle (by simp)]

theorem buffers_runPass_train (h : Obeys view) {n : Network p δ} {rate : Value p}
    {targets : List (Value p)}
    (hk : n.trainKernels.map Kernel.handle = (passHandles n .train).map some)
    (hserves : Serving (view.program n.device) n .train) {e : Attachment δ}
    (hr : n.runPass (.stageTrain rate targets) .train = (.ok (), e)) :
    (view.buffers e).memory =
      trainFold (view.program n.device) rate targets (passHandles n .train) n.arena.memory := by
  rw [runPass_eq] at hr
  obtain ⟨_, d, hprepared, hdispatch⟩ := of_andThen_eq hr
  obtain ⟨hb, hs⟩ := prepared_train h hprepared
  have hkernels : ∀ handle ∈ passHandles n .train, ∀ b, (view.staged d handle b).memory =
      (view.program n.device).train rate targets handle b.memory :=
    fun handle hh => hs handle (hserves handle hh)
  rw [buffers_dispatch h hk hdispatch, memory_foldl hkernels, hb]
  rfl

/-- As many outputs as the network has, all of them zero. -/
def zeros (n : Network p δ) : List (Value p) :=
  List.replicate n.arena.outputs.length Value.zero

/-- What a forward pass starts from: the arena here, and outputs of zero. -/
def feedStart (n : Network p δ) : Buffers p := ⟨n.arena.memory, zeros n⟩

theorem executeFeed_ok (h : Obeys view) {n m : Network p δ} {inputs outs : List (Value p)}
    (hk : n.feedKernels.map Kernel.handle = (passHandles n .feed).map some)
    (hserves : Serving (view.program n.device) n .feed)
    (he : n.executeFeed inputs = (.ok outs, m)) :
    let final := feedFold (view.program n.device) inputs (passHandles n .feed) (feedStart n)
    outs = final.outputs ∧
      m.arena = { n.arena with memory := final.memory, outputs := final.outputs } := by
  intro final
  have hcount : (cleared n).arena.outputs.length = n.arena.outputs.length := by
    simp [cleared, Arena.fillOutputs]
  rw [executeFeed_eq, hcount] at he
  obtain ⟨_, d, hrun, he⟩ := of_andThen_eq he
  obtain ⟨_, m₁, houtputs, he⟩ := of_andThen_eq he
  obtain ⟨_, m₂, hmemory, he⟩ := of_andThen_eq he
  obtain ⟨hreturned, hlast⟩ := Prod.mk.inj he
  have hfinal : view.buffers d = final := buffers_runPass_feed (n := cleared n) h hk hserves hrun
  obtain ⟨found, d₁, hread, hm₁⟩ := of_fetchOutputs_eq houtputs
  obtain ⟨found', d₂, hread', hm₂⟩ := of_fetchMemory_eq hmemory
  obtain ⟨hfound, hkept⟩ := h.outputs hread
  have hfound' := h.memory hread'
  have hdevice : m₁.device = d₁ := by rw [hm₁]
  rw [hdevice, hkept, show (onto (cleared n) d).device = d from rfl, hfinal] at hfound'
  rw [show (onto (cleared n) d).device = d from rfl, hfinal] at hfound
  obtain ⟨hlm, hlo⟩ := length_feedFold (view.program n.device) inputs (passHandles n .feed)
    (feedStart n)
  have hout : Arena.overlay found (cleared n).arena.outputs = final.outputs := by
    rw [hfound]
    exact overlay_eq (by rw [hcount, hlo, feedStart, zeros, List.length_replicate])
  have hmem : Arena.overlay found' n.arena.memory = final.memory := by
    rw [hfound']
    exact overlay_eq hlm
  have harena : m.arena = { n.arena with memory := final.memory, outputs := final.outputs } := by
    rw [← hlast, hm₂, hm₁, ← hout, ← hmem]
    rfl
  have houts : outs = m.arena.outputs := by
    rw [← hlast]
    exact (Except.ok.inj hreturned).symm
  exact ⟨by rw [houts, harena], harena⟩

theorem executeTrain_ok (h : Obeys view) {n m : Network p δ} {rate : Value p}
    {targets : List (Value p)}
    (hk : n.trainKernels.map Kernel.handle = (passHandles n .train).map some)
    (hserves : Serving (view.program n.device) n .train)
    (he : n.executeTrain rate targets = (.ok (), m)) :
    let final := trainFold (view.program n.device) rate targets (passHandles n .train)
      n.arena.memory
    m.arena = { n.arena with memory := final } := by
  intro final
  rw [executeTrain_eq] at he
  obtain ⟨_, d, hrun, hmemory⟩ := of_andThen_eq he
  have hfinal : (view.buffers d).memory = final := buffers_runPass_train h hk hserves hrun
  obtain ⟨found, d', hread, hm⟩ := of_fetchMemory_eq hmemory
  have hfound : found = (view.buffers d).memory := h.memory hread
  have hlength : final.length = n.arena.memory.length := length_trainFold _ _ _ _ _
  have hmem : Arena.overlay found n.arena.memory = final := by
    rw [hfound, hfinal]
    exact overlay_eq hlength
  rw [hm, ← hmem]
  rfl

omit view in
theorem handles_executable {n : Network p δ} {pass : Pass} (h : n.isExecutable pass = true) :
    (n.kernelsOf pass).map Kernel.handle = (passHandles n pass).map some :=
  handles_of_built ((isExecutable_iff n pass).mp h).2.2

theorem feed_folds (h : Obeys view) {n : Network p δ} (he : n.isExecutable .feed = true)
    (hserves : Serving (view.program n.device) n .feed) {inputs : List (Value p)}
    (hf : FaultFree (.feed inputs) n) :
    let final := feedFold (view.program n.device) inputs (passHandles n .feed) (feedStart n)
    (n.feed inputs).result = .ok final.outputs ∧
      (n.feed inputs).network.arena =
        { n.arena with memory := final.memory, outputs := final.outputs } := by
  have hk := handles_executable he
  obtain ⟨outs, hok⟩ := ok_of_follows (calls_feed he inputs hk) hf
  obtain ⟨hr, hn⟩ := feed_executed he inputs
  have hrun : n.executeFeed inputs = (.ok outs, (n.executeFeed inputs).2) :=
    Prod.ext (hr.symm.trans hok) rfl
  obtain ⟨rfl, harena⟩ := executeFeed_ok h hk hserves hrun
  exact ⟨hok, by rw [hn]; exact harena⟩

theorem train_folds (h : Obeys view) {n : Network p δ} (he : n.isExecutable .train = true)
    (hserves : Serving (view.program n.device) n .train) {rate : Value p}
    {targets : List (Value p)} (hf : FaultFree (.train rate targets) n) :
    let final := trainFold (view.program n.device) rate targets (passHandles n .train)
      n.arena.memory
    (n.train rate targets).result = .ok () ∧
      (n.train rate targets).network.arena = { n.arena with memory := final } := by
  have hk := handles_executable he
  obtain ⟨_, hok⟩ := ok_of_follows (calls_train he rate targets hk) hf
  obtain ⟨hr, hn⟩ := train_executed he rate targets
  have hrun : n.executeTrain rate targets = (.ok (), (n.executeTrain rate targets).2) :=
    Prod.ext (hr.symm.trans hok) rfl
  exact ⟨hok, by rw [hn]; exact executeTrain_ok h hk hserves hrun⟩

/-- With its device in this state, a pass of the network in which no call fails comes to the fold of
the effects of its kernels. The state of the device has no part in the fold. -/
structure FoldsBy (effect : Effect p) (n : Network p δ) (d : Attachment δ) : Prop where
  feed : (onto n d).isExecutable .feed = true → Serving effect n .feed → ∀ inputs,
    FaultFree (.feed inputs) (onto n d) →
      let final := feedFold effect inputs (passHandles n .feed) (feedStart n)
      ((onto n d).feed inputs).result = .ok final.outputs ∧
        ((onto n d).feed inputs).network.arena =
          { n.arena with memory := final.memory, outputs := final.outputs }
  train : (onto n d).isExecutable .train = true → Serving effect n .train → ∀ rate targets,
    FaultFree (.train rate targets) (onto n d) →
      let final := trainFold effect rate targets (passHandles n .train) n.arena.memory
      ((onto n d).train rate targets).result = .ok () ∧
        ((onto n d).train rate targets).network.arena = { n.arena with memory := final }

theorem foldsBy_program (h : Obeys view) (n : Network p δ) (d : Attachment δ) :
    FoldsBy (view.program d) n d where
  feed he hserves _ hf := feed_folds h he hserves hf
  train he hserves _ _ hf := train_folds h he hserves hf

end

section
variable [Device p δ]

theorem run_append (first second : List (Operation p δ)) (n : Network p δ) :
    run (first ++ second) n = run second (run first n) := List.foldl_append

theorem program_of_built {view : View p (Attachment δ)} (h : Obeys view) {origin : Origin p}
    {earlier later : List (Operation p δ)} (hq : ∀ op ∈ later, op.Quiet) :
    view.program (run (earlier ++ .compile :: later) origin.network).device =
      view.program (run (earlier ++ [.compile]) origin.network).device := by
  rw [List.append_cons, run_append]
  exact h.program_run hq _

/-- A pass that can run in a state that can be reached finds the program of the last compiling on
the device. If no call of it fails, it comes to the fold of that program over the kernels of the
pass, whatever else there is on the device. -/
theorem passes_fold {view : View p δ} (h : Obeys view) (origin : Origin p)
    (ops : List (Operation p δ)) :
    let n : Network p δ := run ops origin.network
    let program := view.attachment.program
    (∀ pass, n.isExecutable pass = true → ∃ earlier later handles,
      ops = earlier ++ .compile :: later ∧ (∀ op ∈ later, op.Quiet) ∧
      BuiltFrom (run earlier origin.network) n handles ∧
      program n.device = program (run (earlier ++ [.compile]) origin.network).device) ∧
    ∀ d, program d = program n.device → FoldsBy (program n.device) n d := by
  intro n program
  constructor
  · intro pass he
    obtain hnone | ⟨earlier, later, handles, rfl, hq, hb⟩ := kernels_history (δ := δ) origin ops
    · rw [isExecutable_of_noneBuilt hnone pass] at he
      cases he
    · exact ⟨earlier, later, handles, rfl, hq, hb, program_of_built h.attachment hq⟩
  · intro d hd
    rw [← hd]
    exact foldsBy_program h.attachment n d

end

/-- Two slots and an output, with two kernels for the forward pass and one for the other. -/
def slotsOrigin : Origin .single :=
  .record ⟨[.ofNat 3, .ofNat 4], [.ofNat 9], [], [0], [1], [], none⟩
    ⟨[⟨1, "feed_0", ""⟩, ⟨1, "feed_1", ""⟩], [⟨1, "train_0", ""⟩]⟩

/-- The second kernel of the first forward pass fails. -/
def slotsOps : List (Operation .single (Simulated .single)) :=
  [.attach (.attached (Simulated.start .single [⟨.finish, 2, .dispatch⟩] false [])), .compile,
    .feed [.ofNat 5]]

/-- The network after the failure. -/
def slotsNetwork : Network .single (Simulated .single) := run slotsOps slotsOrigin.network

/-- A device with values of somebody else in its buffers. -/
def littered : Attachment (Simulated .single) :=
  .attached { Simulated.start .single [] false [] with
    memory := [.ofNat 7], outputs := [.ofNat 8, .nan] }

theorem passes_fold_slots :
    Obeys (simulatedView .single) ∧ (onto slotsNetwork littered).isExecutable .feed = true ∧
      FaultFree (.feed [.ofNat 5]) (onto slotsNetwork littered) ∧
      ((onto slotsNetwork littered).feed [.ofNat 5]).result = .ok [.ofNat 4] ∧
      ((onto slotsNetwork littered).feed [.ofNat 5]).network.arena.memory =
        [.ofNat 4, .ofNat 6] := by
  have hobeys := obeys_simulated .single
  have he : (onto slotsNetwork littered).isExecutable .feed = true := by decide +kernel
  have hf : FaultFree (.feed [.ofNat 5]) (onto slotsNetwork littered) := by
    unfold FaultFree
    decide +kernel
  have hhandles : passHandles slotsNetwork .feed = [0, 1] := by decide +kernel
  have hstart : feedStart slotsNetwork = ⟨[.ofNat 3, .ofNat 4], [.zero]⟩ := by decide +kernel
  obtain ⟨-, hfolds⟩ := passes_fold hobeys slotsOrigin slotsOps
  have hn : FoldsBy (simulatedEffect .single) slotsNetwork littered := hfolds littered rfl
  obtain ⟨hr, ha⟩ := hn.feed he (fun _ _ => trivial) [.ofNat 5] hf
  rw [hhandles, hstart] at hr ha
  refine ⟨hobeys, he, hf, hr.trans ?_, (congrArg Arena.memory ha).trans ?_⟩
  · decide +kernel
  · decide +kernel

end NeuronKernels.PassFolds
