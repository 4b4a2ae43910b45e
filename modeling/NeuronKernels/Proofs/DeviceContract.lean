import NeuronKernels.Proofs.NetworkRuns

/-!
# What devices promise

A device is looked at through its buffers, through what its program does, and through what the
program would do now, with the arguments that have been staged (`View`). The promise says what each
call changes when it succeeds (`Obeys`). Of a call that fails it says only that the program is still
the same: whatever else it leaves behind on the device is nobody's business.
-/

namespace NeuronKernels.DeviceContract
open BinaryFloat ComputeDevice KernelNetwork KernelUnit NetworkErrors NetworkRuns
open NetworkRuns.Operation SimulatedDevice

variable {p : Precision} {δ : Type}

structure Buffers (p : Precision) where
  memory : List (Value p)
  outputs : List (Value p)
  deriving DecidableEq

/-- What the kernels of a program do, by handle, to the arena and, in a forward pass, to the
outputs; both keep their lengths. A kernel that serves a pass uses nothing but these and the
arguments of that pass. -/
structure Effect (p : Precision) where
  serves : Pass → Nat → Prop
  feed : (inputs : List (Value p)) → (handle : Nat) → Buffers p → Buffers p
  train : (rate : Value p) → (targets : List (Value p)) → (handle : Nat) → List (Value p) →
    List (Value p)
  length_feed_memory : ∀ inputs handle b, (feed inputs handle b).memory.length = b.memory.length
  length_feed_outputs : ∀ inputs handle b, (feed inputs handle b).outputs.length = b.outputs.length
  length_train : ∀ rate targets handle memory,
    (train rate targets handle memory).length = memory.length

/-- What there is to see of a device. `staged` is what its kernels do with the arguments that it
holds. -/
structure View (p : Precision) (δ : Type) where
  buffers : δ → Buffers p
  program : δ → Effect p
  staged : δ → (handle : Nat) → Buffers p → Buffers p

/-- The order does not build. -/
def Running : Order p → Prop
  | .build _ => False
  | _ => True

/-- Calls that succeed change what they are said to change, and only building changes the
program. -/
structure Obeys [Device p δ] (view : View p δ) : Prop where
  upload : ∀ {memory : List (Value p)} {d e : δ},
    Device.order (.upload memory) d = (.ok (), e) → (view.buffers e).memory = memory
  stageFeed : ∀ {inputs : List (Value p)} {count : Nat} {d e : δ},
    Device.order (.stageFeed inputs count) d = (.ok (), e) →
      view.buffers e = ⟨(view.buffers d).memory, List.replicate count Value.zero⟩ ∧
      ∀ handle, (view.program d).serves .feed handle →
        view.staged e handle = (view.program d).feed inputs handle
  stageTrain : ∀ {rate : Value p} {targets : List (Value p)} {d e : δ},
    Device.order (.stageTrain rate targets) d = (.ok (), e) →
      (view.buffers e).memory = (view.buffers d).memory ∧
      ∀ handle, (view.program d).serves .train handle → ∀ b,
        (view.staged e handle b).memory = (view.program d).train rate targets handle b.memory
  enqueue : ∀ {handle : Nat} {d e : δ}, Device.order (.enqueue handle : Order p) d = (.ok (), e) →
    view.buffers e = view.staged d handle (view.buffers d) ∧ view.staged e = view.staged d
  finish : ∀ {d e : δ}, Device.order (.finish : Order p) d = (.ok (), e) →
    view.buffers e = view.buffers d ∧ view.staged e = view.staged d
  outputs : ∀ {values found : List (Value p)} {d e : δ},
    Device.outputs values d = ((.ok (), found), e) →
      found = (view.buffers d).outputs ∧ (view.buffers e).memory = (view.buffers d).memory
  memory : ∀ {values found : List (Value p)} {d e : δ},
    Device.memory values d = ((.ok (), found), e) → found = (view.buffers d).memory
  program_order : ∀ {o : Order p}, Running o → ∀ d,
    view.program (Device.order o d).2 = view.program d
  program_handleOf : ∀ name d, view.program (Device.handleOf p name d).2 = view.program d
  program_outputs : ∀ (values : List (Value p)) d,
    view.program (Device.outputs values d).2 = view.program d
  program_memory : ∀ (values : List (Value p)) d,
    view.program (Device.memory values d).2 = view.program d

/-- A program that does nothing. -/
def Effect.idle (p : Precision) : Effect p where
  serves _ _ := False
  feed _ _ b := b
  train _ _ _ memory := memory
  length_feed_memory _ _ _ := rfl
  length_feed_outputs _ _ _ := rfl
  length_train _ _ _ _ := rfl

/-- The view of the device that is attached; there is nothing to see of the portable one. -/
def View.attachment (view : View p δ) : View p (Attachment δ) where
  buffers
    | .portable => ⟨[], []⟩
    | .attached d => view.buffers d
  program
    | .portable => .idle p
    | .attached d => view.program d
  staged
    | .portable => fun _ b => b
    | .attached d => view.staged d

theorem of_wrap_eq {α : Type} {r : α × δ} {a : α} {e : Attachment δ}
    (h : Attachment.wrap r = (a, e)) : ∃ d, e = .attached d ∧ r = (a, d) := by
  obtain ⟨b, d⟩ := r
  obtain ⟨rfl, rfl⟩ := Prod.mk.inj h
  exact ⟨d, rfl, rfl⟩

theorem Obeys.attachment [Device p δ] {view : View p δ} (h : Obeys view) :
    Obeys view.attachment where
  upload {memory d e} hd := by
    cases d with
    | portable => cases hd
    | attached d =>
      obtain ⟨e, rfl, he⟩ := of_wrap_eq hd
      exact h.upload he
  stageFeed {inputs count d e} hd := by
    cases d with
    | portable => cases hd
    | attached d =>
      obtain ⟨e, rfl, he⟩ := of_wrap_eq hd
      exact h.stageFeed he
  stageTrain {rate targets d e} hd := by
    cases d with
    | portable => cases hd
    | attached d =>
      obtain ⟨e, rfl, he⟩ := of_wrap_eq hd
      exact h.stageTrain he
  enqueue {handle d e} hd := by
    cases d with
    | portable => cases hd
    | attached d =>
      obtain ⟨e, rfl, he⟩ := of_wrap_eq hd
      exact h.enqueue he
  finish {d e} hd := by
    cases d with
    | portable =>
      cases hd
      exact ⟨rfl, rfl⟩
    | attached d =>
      obtain ⟨e, rfl, he⟩ := of_wrap_eq hd
      exact h.finish he
  outputs {values found d e} hd := by
    cases d with
    | portable => cases hd
    | attached d =>
      obtain ⟨e, rfl, he⟩ := of_wrap_eq hd
      exact h.outputs he
  memory {values found d e} hd := by
    cases d with
    | portable => cases hd
    | attached d =>
      obtain ⟨e, rfl, he⟩ := of_wrap_eq hd
      exact h.memory he
  program_order ho d := by
    cases d with
    | portable => rfl
    | attached d => exact h.program_order ho d
  program_handleOf name d := by
    cases d with
    | portable => rfl
    | attached d => exact h.program_handleOf name d
  program_outputs values d := by
    cases d with
    | portable => rfl
    | attached d => exact h.program_outputs values d
  program_memory values d := by
    cases d with
    | portable => rfl
    | attached d => exact h.program_memory values d

section
variable [Device p δ] {view : View p (Attachment δ)} (h : Obeys view)
include h

theorem Obeys.program_obey {os : List (Order p)} (hos : ∀ o ∈ os, Running o)
    (d : Attachment δ) : view.program (obey os d).2 = view.program d := by
  induction os generalizing d with
  | nil => rfl
  | cons o os ih =>
    have hrest : ∀ e, view.program (obey os e).2 = view.program e :=
      ih fun o ho => hos o (by simp [ho])
    calc view.program (obey (o :: os) d).2
      _ = view.program (andThen (Device.order o d) id fun _ => obey os).2 := by rw [obey_cons]
      _ = view.program (Device.order o d).2 := andThen_carries (fun _ => rfl) fun _ => hrest
      _ = view.program d := h.program_order (hos o (by simp)) d

theorem Obeys.program_dispatch (ks : List Kernel) (d : Attachment δ) :
    view.program (Network.dispatch (p := p) ks d).2 = view.program d := by
  induction ks generalizing d with
  | nil => rfl
  | cons k ks ih =>
    cases hk : k.handle with
    | none => simp [Network.dispatch, hk]
    | some handle =>
      have hkernel : ∀ o ∈ [(.enqueue handle : Order p), .finish], Running o := by
        simp [Running]
      rw [dispatch_cons hk]
      calc view.program (andThen (obey [(.enqueue handle : Order p), .finish] d) id fun _ =>
            Network.dispatch (p := p) ks).2
        _ = view.program (obey [(.enqueue handle : Order p), .finish] d).2 :=
          andThen_carries (fun _ => rfl) fun _ => ih
        _ = view.program d := h.program_obey hkernel d

theorem Obeys.program_runPass (n : Network p δ) {arguments : Order p} (ha : Running arguments)
    (pass : Pass) : view.program (n.runPass arguments pass).2 = view.program n.device := by
  have hstart : ∀ o ∈ [.upload n.arena.memory, arguments], Running o := by
    intro o ho
    obtain rfl | rfl := by simpa using ho
    · trivial
    · exact ha
  rw [runPass_eq]
  calc view.program (andThen (obey [.upload n.arena.memory, arguments] n.device) id fun _ =>
        Network.dispatch (p := p) (n.kernelsOf pass)).2
    _ = view.program (obey [.upload n.arena.memory, arguments] n.device).2 :=
      andThen_carries (fun _ => rfl) fun _ => h.program_dispatch _
    _ = view.program n.device := h.program_obey hstart n.device

theorem Obeys.program_executeFeed (n : Network p δ) (inputs : List (Value p)) :
    view.program (n.executeFeed inputs).2.device = view.program n.device := by
  let programOf (m : Network p δ) : Effect p := view.program m.device
  have hrun := h.program_runPass (cleared n)
    (show Running (.stageFeed inputs (cleared n).arena.outputs.length) from trivial) .feed
  have hmemory : ∀ m : Network p δ,
      programOf (andThen m.fetchMemory id fun _ m => (.ok m.arena.outputs, m)).2 = programOf m := by
    intro m
    have hread := h.program_memory m.arena.memory m.device
    refine Eq.trans (andThen_carries (f := programOf) (fun _ => rfl) fun _ _ => rfl) hread
  rw [executeFeed_eq]
  refine Eq.trans (andThen_carries (g := programOf) (fun _ => rfl) fun _ e => ?_) hrun
  have hread := h.program_outputs (cleared n).arena.outputs e
  exact Eq.trans (andThen_carries (f := programOf) (fun _ => rfl) fun _ => hmemory) hread

theorem Obeys.program_executeTrain (n : Network p δ) (rate : Value p) (targets : List (Value p)) :
    view.program (n.executeTrain rate targets).2.device = view.program n.device := by
  let programOf (m : Network p δ) : Effect p := view.program m.device
  have hrun := h.program_runPass n (show Running (.stageTrain rate targets) from trivial) .train
  rw [executeTrain_eq]
  refine Eq.trans (andThen_carries (g := programOf) (fun _ => rfl) fun _ e => ?_) hrun
  exact h.program_memory n.arena.memory e

theorem Obeys.program_feed (n : Network p δ) (inputs : List (Value p)) :
    view.program (n.feed inputs).network.device = view.program n.device := by
  cases he : n.isExecutable .feed with
  | false => rw [(feed_idle he inputs).2]
  | true =>
    rw [(feed_executed he inputs).2]
    exact h.program_executeFeed n inputs

theorem Obeys.program_train (n : Network p δ) (rate : Value p) (targets : List (Value p)) :
    view.program (n.train rate targets).network.device = view.program n.device := by
  cases he : n.isExecutable .train with
  | false => rw [(train_idle he rate targets).2]
  | true =>
    rw [(train_executed he rate targets).2]
    exact h.program_executeTrain n rate targets

/-- What is quiet keeps the program. -/
theorem Obeys.program_after {op : Operation p δ} (hq : op.Quiet) (n : Network p δ) :
    view.program (op.after n).device = view.program n.device := by
  cases op with
  | attach device => exact hq.elim
  | compile => exact hq.elim
  | feed inputs => exact h.program_feed n inputs
  | train rate targets => exact h.program_train n rate targets
  | loadRecord r => rfl
  | loadText text => rw [device_after (show Silent (.loadText text) from trivial)]
  | loadFile tree path => rw [device_after (show Silent (.loadFile tree path) from trivial)]
  | edit change => rfl

theorem Obeys.program_run {ops : List (Operation p δ)} (hq : ∀ op ∈ ops, op.Quiet)
    (n : Network p δ) : view.program (run ops n).device = view.program n.device := by
  induction ops generalizing n with
  | nil => rfl
  | cons op ops ih =>
    have hrest := ih (fun op ho => hq op (by simp [ho])) (op.after n)
    exact hrest.trans (h.program_after (hq op (by simp)) n)

end

/-- The arena after the kernel with a handle: one slot grows. -/
def grown (handle : Nat) (memory : List (Value p)) : List (Value p) :=
  memory.modify (handle % memory.length) fun v => v.add (Value.ofNat (handle + 1))

/-- What the kernel with a handle does to buffers: a slot grows, and the arena is copied into the
outputs, over and over. -/
def simulatedKernel (handle : Nat) (b : Buffers p) : Buffers p where
  memory := grown handle b.memory
  outputs := b.outputs.mapIdx fun j v =>
    if b.memory.length = 0 then v else ((grown handle b.memory)[j % b.memory.length]?).getD v

/-- The kernels of a simulated device do not use their arguments. -/
def simulatedEffect (p : Precision) : Effect p where
  serves _ _ := True
  feed _ := simulatedKernel
  train _ _ := grown
  length_feed_memory _ handle b := by simp [simulatedKernel, grown]
  length_feed_outputs _ handle b := by simp [simulatedKernel]
  length_train _ _ handle memory := by simp [grown]

/-- The view of a simulated device. -/
def simulatedView (p : Precision) : View p (Simulated p) where
  buffers d := ⟨d.memory, d.outputs⟩
  program _ := simulatedEffect p
  staged _ := simulatedKernel

theorem of_call_eq_ok {α : Type} {kind : CallKind} {details : String}
    {act : Simulated p → Except NetworkError α × Simulated p} {d e : Simulated p} {a : α}
    (h : Simulated.call kind details act d = (.ok a, e)) :
    act (d.record kind details) = (.ok a, e) := by
  simp only [Simulated.call] at h
  split at h
  · cases h
  · exact h

theorem of_read_eq_ok {kind : CallKind} {buffer : Simulated p → List (Value p)}
    {values found : List (Value p)} {d e : Simulated p}
    (h : Simulated.read kind buffer values d = ((.ok (), found), e)) :
    e = d.record kind "" ∧ found = buffer e := by
  simp only [Simulated.read] at h
  split at h
  · cases h
  · next result e' hcall =>
    have hact := of_call_eq_ok hcall
    cases h
    cases hact
    exact ⟨rfl, rfl⟩

theorem buffers_run (handle : Nat) (d : Simulated p) :
    (⟨(d.run handle).memory, (d.run handle).outputs⟩ : Buffers p) =
      simulatedKernel handle ⟨d.memory, d.outputs⟩ := by
  by_cases hm : d.memory.length = 0
  · have hnil := List.eq_nil_of_length_eq_zero hm
    have hkept : d.outputs.mapIdx (fun _ v => v) = d.outputs := by
      simp [List.mapIdx_eq_zipIdx_map]
    simp [Simulated.run, simulatedKernel, grown, hnil, hkept]
  · simp [Simulated.run, simulatedKernel, grown, hm]

theorem obeys_simulated (p : Precision) : Obeys (simulatedView p) where
  upload {memory d e} hd := by
    simp only [Device.order, Simulated.order] at hd
    cases of_call_eq_ok hd
    rfl
  stageFeed {inputs count d e} hd := by
    simp only [Device.order, Simulated.order] at hd
    cases of_call_eq_ok hd
    exact ⟨rfl, fun _ _ => rfl⟩
  stageTrain {rate targets d e} hd := by
    simp only [Device.order, Simulated.order] at hd
    cases of_call_eq_ok hd
    exact ⟨rfl, fun _ _ _ => rfl⟩
  enqueue {handle d e} hd := by
    simp only [Device.order, Simulated.order] at hd
    cases of_call_eq_ok hd
    exact ⟨buffers_run handle _, rfl⟩
  finish {d e} hd := by
    simp only [Device.order, Simulated.order] at hd
    cases of_call_eq_ok hd
    exact ⟨rfl, rfl⟩
  outputs {values found d e} hd := by
    obtain ⟨rfl, rfl⟩ := of_read_eq_ok hd
    exact ⟨rfl, rfl⟩
  memory {values found d e} hd := by
    obtain ⟨rfl, rfl⟩ := of_read_eq_ok hd
    rfl
  program_order _ _ := rfl
  program_handleOf _ _ := rfl
  program_outputs _ _ := rfl
  program_memory _ _ := rfl

end NeuronKernels.DeviceContract
