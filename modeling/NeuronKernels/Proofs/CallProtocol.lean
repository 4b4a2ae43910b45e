import NeuronKernels.Proofs.CallBlocks

/-!
# The order of calls

Between one device and the next, a network asks for a compiling or a pass one block at a time, and a
block ends early only with a call that failed. `Step` says which blocks an operation may add, given
what the last compiling built; `Ready` is the invariant that carries a run: what was built is what
the kernels of the network carry now.
-/

namespace NeuronKernels.CallProtocol
open BinaryFloat ComputeDevice KernelNetwork KernelUnit NetworkErrors NetworkRuns
open NetworkRuns.Operation RecordedCalls CallBlocks

variable {p : Precision} {δ : Type} [Device p δ]

/-- The sources that the last compiling built, with the handles that were found for them. It is
absent before the first compiling, after one that failed, and after other kernels came in. -/
abbrev Program := Option (List (Source × Nat))

/-- The calls that an operation may make on a network, for a program and the program afterwards. -/
inductive Step (n : Network p δ) :
    Operation p δ → Program → List (Exchange p) → Program → Prop
  | compiled {program : Program} {handles : List Nat}
      (accelerated : Device.accelerated p n.device = true)
      (length : handles.length = n.kernels.length) (returned : n.compile.result = .ok ()) :
      Step n .compile program (compileBlock n handles)
        (some ((n.kernels.map Kernel.source).zip handles))
  | broken {program : Program} {handles : List Nat} {made : List (Exchange p)} {e : NetworkError}
      (accelerated : Device.accelerated p n.device = true)
      (length : handles.length = n.kernels.length) (returned : n.compile.result = .error e)
      (cut : Follows (compileBlock n handles) made n.compile.result) :
      Step n .compile program made none
  | refused {program : Program} (portable : Device.accelerated p n.device = false) :
      Step n .compile program [] none
  | fed {inputs : List (Value p)} {built : List (Source × Nat)} {made : List (Exchange p)}
      (accelerated : Device.accelerated p n.device = true) (kernels : n.feedKernels ≠ [])
      (current : n.kernels.map Kernel.source = built.map Prod.fst)
      (follows : Follows
        (feedBlock n inputs ((built.map Prod.snd).take n.feedKernels.length)) made
        (n.feed inputs).result) :
      Step n (.feed inputs) (some built) made (some built)
  | feedSkipped {inputs : List (Value p)} {program : Program}
      (idle : program = none ∨ Device.accelerated p n.device = false ∨ n.feedKernels = []) :
      Step n (.feed inputs) program [] program
  | trained {rate : Value p} {targets : List (Value p)} {built : List (Source × Nat)}
      {made : List (Exchange p)}
      (accelerated : Device.accelerated p n.device = true) (kernels : n.trainKernels ≠ [])
      (current : n.kernels.map Kernel.source = built.map Prod.fst)
      (follows : Follows
        (trainBlock n rate targets ((built.map Prod.snd).drop n.feedKernels.length)) made
        (n.train rate targets).result) :
      Step n (.train rate targets) (some built) made (some built)
  | trainSkipped {rate : Value p} {targets : List (Value p)} {program : Program}
      (idle : program = none ∨ Device.accelerated p n.device = false ∨ n.trainKernels = []) :
      Step n (.train rate targets) program [] program
  | loaded {op : Operation p δ} {program : Program} {r : StoredNetwork.NetworkRecord}
      (record : op.record = some r) : Step n op program [] none
  | silent {op : Operation p δ} {program : Program} (silent : op.Silent)
      (record : op.record = none) : Step n op program [] program

/-- The calls that the last device of a run may have had, with the program that it then has. -/
inductive Protocol (origin : Origin p) :
    List (Operation p δ) → List (Exchange p) → Program → Prop
  | start : Protocol origin [] [] none
  | attached {ops : List (Operation p δ)} {log : List (Exchange p)} {program : Program}
      (run : Protocol origin ops log program) (device : Attachment δ) :
      Protocol origin (ops ++ [.attach device]) [] none
  | step {ops : List (Operation p δ)} {log made : List (Exchange p)} {program after : Program}
      {op : Operation p δ} (run : Protocol origin ops log program)
      (step : Step (NetworkRuns.run ops origin.network) op program made after) :
      Protocol origin (ops ++ [op]) (log ++ made) after

/-- The kernels are the ones of the program, with its handles; without a program none is built. -/
def Ready (n : Network p δ) : Program → Prop
  | none => NoneBuilt n
  | some built => n.kernels.map Kernel.source = built.map Prod.fst ∧
      n.kernels.map Kernel.handle = (built.map Prod.snd).map some

theorem Ready.touched {n after : Network p δ} {program : Program} (h : Ready n program)
    (ht : Touched n after) : Ready after program := by
  obtain ⟨a, d, -, rfl⟩ := ht
  cases program <;> exact h

omit [Device p δ] in
theorem Ready.allBuilt {n : Network p δ} {built : List (Source × Nat)}
    (h : Ready n (some built)) : AllBuilt n := allBuilt_of_handles h.2

/-- A pass that cannot run has no program, no device to run on, or no kernels. -/
theorem Ready.idle {n : Network p δ} {program : Program} (h : Ready n program) {pass : Pass}
    (he : n.isExecutable pass = false) :
    program = none ∨ Device.accelerated p n.device = false ∨ n.kernelsOf pass = [] := by
  cases program with
  | none => exact .inl rfl
  | some built =>
    by_contra hc
    simp only [reduceCtorEq, false_or, not_or, Bool.not_eq_false] at hc
    rw [isExecutable_of_allBuilt h.allBuilt hc.1 pass hc.2] at he
    cases he

/-- A pass that can run has a program. -/
theorem Ready.exists_built {n : Network p δ} {program : Program} (h : Ready n program) {pass : Pass}
    (he : n.isExecutable pass = true) : ∃ built, program = some built := by
  cases program with
  | none =>
    rw [isExecutable_of_noneBuilt h pass] at he
    cases he
  | some built => exact ⟨built, rfl⟩

theorem step_compile (n : Network p δ) (program : Program) :
    ∃ after, Step n .compile program (calls .compile n) after ∧ Ready n.compile.network after := by
  cases ha : Device.accelerated p n.device with
  | false =>
    refine ⟨none, ?_, ?_⟩
    · rw [calls_compile_refused ha]
      exact .refused ha
    · exact noneBuilt_of_compile_error (compile_refused ha).1
  | true =>
    obtain ⟨handles, hl, hf, hh⟩ := calls_compile ha
    cases hc : n.compile.result with
    | error e => exact ⟨none, .broken ha hl hc hf, noneBuilt_of_compile_error hc⟩
    | ok _ =>
      have hz : handles.length = (n.kernels.map Kernel.source).length := by simp [hl]
      rw [hc] at hf
      refine ⟨some ((n.kernels.map Kernel.source).zip handles), ?_, ?_, ?_⟩
      · rw [show calls .compile n = compileBlock n handles from hf]
        exact .compiled ha hl hc
      · rw [List.map_fst_zip (Nat.le_of_eq hz.symm)]
        exact sources_compile n
      · rw [List.map_snd_zip (Nat.le_of_eq hz)]
        exact hh hc

theorem step_feed {n : Network p δ} {program : Program} (h : Ready n program)
    (inputs : List (Value p)) :
    Step n (.feed inputs) program (calls (.feed inputs) n) program := by
  cases he : n.isExecutable .feed with
  | false =>
    rw [calls_feed_idle he]
    exact .feedSkipped (h.idle he)
  | true =>
    obtain ⟨built, rfl⟩ := h.exists_built he
    obtain ⟨ha, hne, -⟩ := (isExecutable_iff n .feed).mp he
    exact .fed ha hne h.1 (calls_feed he inputs (handles_feed h.2))

theorem step_train {n : Network p δ} {program : Program} (h : Ready n program) (rate : Value p)
    (targets : List (Value p)) :
    Step n (.train rate targets) program (calls (.train rate targets) n) program := by
  cases he : n.isExecutable .train with
  | false =>
    rw [calls_train_idle he]
    exact .trainSkipped (h.idle he)
  | true =>
    obtain ⟨built, rfl⟩ := h.exists_built he
    obtain ⟨ha, hne, -⟩ := (isExecutable_iff n .train).mp he
    exact .trained ha hne h.1 (calls_train he rate targets (handles_train h.2))

theorem step_silent {n : Network p δ} {program : Program} (h : Ready n program)
    {op : Operation p δ} (hs : op.Silent) (hq : op.record = none → op.Quiet) :
    ∃ after, Step n op program (calls op n) after ∧ Ready (op.after n) after := by
  rw [calls_silent hs]
  cases hr : op.record with
  | none => exact ⟨program, .silent hs hr, h.touched ((hq hr).touched n)⟩
  | some r =>
    refine ⟨none, .loaded hr, ?_⟩
    rw [after_of_record hr]
    exact noneBuilt_loadRecord n r

/-- Every operation makes only calls that are its turn, and keeps the invariant. -/
theorem step_calls {n : Network p δ} {program : Program} (h : Ready n program)
    {op : Operation p δ} (hop : ∀ device, op ≠ .attach device) :
    ∃ after, Step n op program (calls op n) after ∧ Ready (op.after n) after := by
  cases op with
  | attach device => exact absurd rfl (hop device)
  | compile => exact step_compile n program
  | feed inputs => exact ⟨program, step_feed h inputs, h.touched (touched_feed n inputs)⟩
  | train rate targets =>
    exact ⟨program, step_train h rate targets, h.touched (touched_train n rate targets)⟩
  | _ => exact step_silent h trivial id

theorem protocol_run (origin : Origin p) (ops : List (Operation p δ)) :
    ∃ program, Protocol origin ops (received ops origin) program ∧
      Ready (run ops origin.network) program := by
  induction ops using List.reverseRecOn with
  | nil =>
    have hr : received ([] : List (Operation p δ)) origin = [] := by cases origin <;> rfl
    rw [hr]
    exact ⟨none, .start, noneBuilt_network origin⟩
  | append_singleton ops op ih =>
    obtain ⟨program, hp, hr⟩ := ih
    rw [run_concat]
    by_cases hop : ∃ device, op = .attach device
    · obtain ⟨device, rfl⟩ := hop
      rw [received_attach]
      exact ⟨none, hp.attached device, noneBuilt_unbind _⟩
    · have hne : ∀ device, op ≠ .attach device := fun device ho => hop ⟨device, ho⟩
      obtain ⟨after, hs, hr'⟩ := step_calls hr hne
      rw [received_concat ops hne]
      exact ⟨after, hp.step hs, hr'⟩

end NeuronKernels.CallProtocol
