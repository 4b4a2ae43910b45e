import NeuronKernels.Proofs.CallBlocks

/-!
# Which networks are built

A handle gets into a network only at the end of a compiling that went well, and then every kernel
gets one; everything that could make a handle stale takes all of them away. So the kernels of a
network are built together, by the last compiling, from the sources that are still there
(`kernels_history`).
-/

namespace NeuronKernels.BuiltNetworks
open BinaryFloat ComputeDevice KernelNetwork KernelUnit MemoryArena NetworkErrors NetworkFiles
open NetworkRuns NetworkRuns.Operation NeuronGraph RecordedCalls CallBlocks SimulatedDevice

variable {p : Precision} {δ : Type} [Device p δ]

/-- The kernels of the second network carry the handles that compiling the first one came to, on the
same device, and they are the kernels that were compiled. -/
structure BuiltFrom (before n : Network p δ) (handles : List Nat) : Prop where
  accelerated : Device.accelerated p before.device = true
  returned : before.compile.result = .ok ()
  calls : calls .compile before = compileBlock before handles
  sources : n.kernels.map Kernel.source = before.kernels.map Kernel.source
  handles : n.kernels.map Kernel.handle = handles.map some
  device : Called p before.device n.device

theorem BuiltFrom.touched {before n after : Network p δ} {handles : List Nat}
    (h : BuiltFrom before n handles) (ht : Touched n after) : BuiltFrom before after handles := by
  obtain ⟨a, d, hd, rfl⟩ := ht
  exact ⟨h.accelerated, h.returned, h.calls, h.sources, h.handles, h.device.trans hd⟩

theorem builtFrom_compile {n : Network p δ} (h : n.compile.result = .ok ()) :
    ∃ handles, BuiltFrom n n.compile.network handles := by
  obtain ⟨e, -, -, he, -⟩ | ⟨found, d, hd, -, ha, hl, hn⟩ := compile_cases n
  · rw [he] at h
    cases h
  · obtain ⟨handles, -, hf, hh⟩ := calls_compile ha
    rw [h] at hf
    refine ⟨handles, ha, h, hf, sources_compile n, hh h, ?_⟩
    rw [hn]
    exact hd

/-- The kernels are built from a compiling that went well, and nothing after it has brought another
device or other kernels or has compiled again. -/
def BuiltLast (origin : Origin p) (ops : List (Operation p δ)) : Prop :=
  ∃ earlier later handles, ops = earlier ++ .compile :: later ∧ (∀ op ∈ later, op.Quiet) ∧
    BuiltFrom (run earlier origin.network) (run ops origin.network) handles

theorem kernels_history (origin : Origin p) (ops : List (Operation p δ)) :
    NoneBuilt (run ops origin.network : Network p δ) ∨ BuiltLast origin ops := by
  induction ops using List.reverseRecOn with
  | nil => exact .inl (noneBuilt_network origin)
  | append_singleton ops op ih =>
    rw [BuiltLast, run_concat]
    obtain ⟨device, rfl⟩ | rfl | ⟨r, hr⟩ | hq := op.cases_after
    · exact .inl (noneBuilt_unbind _)
    · cases hc : (run ops origin.network : Network p δ).compile.result with
      | error e => exact .inl (noneBuilt_of_compile_error hc)
      | ok _ =>
        obtain ⟨handles, hb⟩ := builtFrom_compile hc
        exact .inr ⟨ops, [], handles, by simp, by simp, hb⟩
    · rw [after_of_record hr]
      exact .inl (noneBuilt_loadRecord _ r)
    · have ht := hq.touched (run ops origin.network)
      obtain hn | ⟨earlier, later, handles, rfl, hl, hb⟩ := ih
      · exact .inl (noneBuilt_touched hn ht)
      · refine .inr ⟨earlier, later ++ [op], handles, by simp, ?_, hb.touched ht⟩
        intro o ho
        obtain ho | rfl := by simpa using ho
        · exact hl o ho
        · exact hq

/-- Either pass runs exactly when the network is built. It makes calls then, and unless one of them
fails it starts kernels. -/
structure RunsWhenBuilt (n : Network p δ) : Prop where
  feed : n.isExecutable .feed = n.isBuilt
  train : n.isExecutable .train = n.isBuilt
  feed_calls : ∀ inputs, n.isBuilt = true ↔ calls (.feed inputs) n ≠ []
  train_calls : ∀ rate targets, n.isBuilt = true ↔ calls (.train rate targets) n ≠ []
  feed_starts : ∀ inputs outputs, (n.feed inputs).result = .ok outputs →
    (n.isBuilt = true ↔ enqueued (calls (.feed inputs) n) ≠ [])
  train_starts : ∀ rate targets, (n.train rate targets).result = .ok () →
    (n.isBuilt = true ↔ enqueued (calls (.train rate targets) n) ≠ [])

theorem follows_starts {α : Type} {block made : List (Exchange p)} {r : Except NetworkError α}
    (h : Follows block made r) (hb : enqueued block ≠ []) :
    made ≠ [] ∧ ∀ a, r = .ok a → enqueued made ≠ [] := by
  have hne : block ≠ [] := by
    rintro rfl
    exact hb rfl
  refine ⟨follows_ne_nil h hne, fun a ha => ?_⟩
  rw [ha] at h
  obtain rfl : made = block := h
  exact hb

omit [Device p δ] in
theorem handles_pass {n : Network p δ} (h : AllBuilt n) (pass : Pass) :
    (n.kernelsOf pass).map Kernel.handle =
      ((n.kernelsOf pass).filterMap Kernel.handle).map some :=
  handles_of_built fun k hk => h k (mem_kernels hk)

omit [Device p δ] in
theorem handles_ne_nil {n : Network p δ} (h : AllBuilt n) (pass : Pass)
    (hne : n.kernelsOf pass ≠ []) : (n.kernelsOf pass).filterMap Kernel.handle ≠ [] := by
  have hk := handles_pass h pass
  intro hh
  rw [hh, List.map_nil, List.map_eq_nil_iff] at hk
  exact hne hk

theorem runsWhenBuilt_of_noneBuilt {n : Network p δ} (hf : n.feedKernels ≠ [])
    (ht : n.trainKernels ≠ []) (h : NoneBuilt n) : RunsWhenBuilt n := by
  have hb : n.isBuilt = false := by
    have hne : n.kernels ≠ [] := by simp [Network.kernels, hf]
    simpa using (isBuilt_iff hf ht).not.mpr (not_allBuilt h hne)
  have hef := isExecutable_of_noneBuilt h .feed
  have het := isExecutable_of_noneBuilt h .train
  exact
    { feed := hef.trans hb.symm
      train := het.trans hb.symm
      feed_calls := fun inputs => by simp [hb, calls_feed_idle hef]
      train_calls := fun rate targets => by simp [hb, calls_train_idle het]
      feed_starts := fun inputs _ _ => by simp [hb, calls_feed_idle hef, enqueued]
      train_starts := fun rate targets _ => by simp [hb, calls_train_idle het, enqueued] }

theorem runsWhenBuilt_of_allBuilt {n : Network p δ} (hf : n.feedKernels ≠ [])
    (ht : n.trainKernels ≠ []) (h : AllBuilt n) (ha : Device.accelerated p n.device = true) :
    RunsWhenBuilt n := by
  have hb := (isBuilt_iff hf ht).mpr h
  have hef := isExecutable_of_allBuilt h ha .feed hf
  have het := isExecutable_of_allBuilt h ha .train ht
  have feed_made : ∀ inputs, calls (.feed inputs) n ≠ [] ∧ ∀ outputs,
      (n.feed inputs).result = .ok outputs → enqueued (calls (.feed inputs) n) ≠ [] := by
    intro inputs
    apply follows_starts (calls_feed hef inputs (handles_pass h .feed))
    rw [enqueued_feedBlock]
    exact handles_ne_nil h .feed hf
  have train_made : ∀ rate targets, calls (.train rate targets) n ≠ [] ∧ ∀ a,
      (n.train rate targets).result = .ok a → enqueued (calls (.train rate targets) n) ≠ [] := by
    intro rate targets
    apply follows_starts (calls_train het rate targets (handles_pass h .train))
    rw [enqueued_trainBlock]
    exact handles_ne_nil h .train ht
  exact
    { feed := hef.trans hb.symm
      train := het.trans hb.symm
      feed_calls := fun inputs => by simpa [hb] using (feed_made inputs).1
      train_calls := fun rate targets => by simpa [hb] using (train_made rate targets).1
      feed_starts := fun inputs outputs hr => by simpa [hb] using (feed_made inputs).2 outputs hr
      train_starts := fun rate targets hr => by
        simpa [hb] using (train_made rate targets).2 () hr }

/-- In every state that can be reached the kernels are built together or not at all. When they are
built, it was by the last compiling, which nothing has made stale; failures, other devices and loads
leave nothing built. -/
theorem built_all_or_none (origin : Origin p) (ops : List (Operation p δ)) :
    let n : Network p δ := run ops origin.network
    (AllBuilt n ∨ NoneBuilt n) ∧
    (n.kernels ≠ [] → AllBuilt n →
      BuiltLast origin ops ∧ (Steady p δ → Device.accelerated p n.device = true)) ∧
    (∀ e, n.compile.result = .error e → NoneBuilt n.compile.network) ∧
    (∀ device, NoneBuilt (n.withDevice device)) ∧
    (∀ r, NoneBuilt (n.loadRecord r)) ∧
    (∀ text, (n.loadText text).result = .ok () → NoneBuilt (n.loadText text).network) ∧
    (∀ tree path, (loadNetwork tree path n).result = .ok () →
      NoneBuilt (loadNetwork tree path n).network) ∧
    (Steady p δ → n.feedKernels ≠ [] → n.trainKernels ≠ [] → RunsWhenBuilt n) ∧
    (∀ (a : Arena p) (g : Graph) (budget : Nat), g.neuronCount ≠ 0 →
      (Network.ofGraph a g budget : Network p δ).feedKernels ≠ [] ∧
        (Network.ofGraph a g budget : Network p δ).trainKernels ≠ []) := by
  intro n
  have loaded : ∀ op : Operation p δ, (∃ r, op.record = some r) → NoneBuilt (op.after n) := by
    rintro op ⟨r, hr⟩
    rw [after_of_record hr]
    exact noneBuilt_loadRecord n r
  have history := kernels_history (δ := δ) origin ops
  have built : BuiltLast origin ops →
      AllBuilt n ∧ (Steady p δ → Device.accelerated p n.device = true) := by
    rintro ⟨earlier, later, handles, -, -, hb⟩
    refine ⟨allBuilt_of_handles hb.handles, fun hs => ?_⟩
    exact (hs.attachment.called hb.device).trans hb.accelerated
  refine ⟨?_, fun hne hall => ?_, fun e => noneBuilt_of_compile_error,
    fun device => noneBuilt_unbind n, noneBuilt_loadRecord n,
    fun text ht => loaded (.loadText text) ((record_loadText text n).mp ht),
    fun tree path ht => loaded (.loadFile tree path) ((record_loadFile tree path n).mp ht),
    fun hs hf ht => ?_, fun a g budget h => kernels_ofGraph_ne_nil h budget⟩
  · exact history.symm.imp_left fun h => (built h).1
  · have hb := history.resolve_left fun h => not_allBuilt h hne hall
    exact ⟨hb, (built hb).2⟩
  · obtain hn | hb := history
    · exact runsWhenBuilt_of_noneBuilt hf ht hn
    · exact runsWhenBuilt_of_allBuilt hf ht (built hb).1 ((built hb).2 hs)

/-- Two kernels, one for each pass. -/
def pairOrigin : Origin .single :=
  .record Arena.empty ⟨[⟨1, "feed_0", ""⟩], [⟨1, "train_0", ""⟩]⟩

/-- A simulated device comes in and the network is compiled for it. -/
def pairOps : List (Operation .single (Simulated .single)) :=
  [.attach (.attached (Simulated.start .single [] false [])), .compile]

theorem built_pair :
    Steady .single (Simulated .single) ∧
      BuiltLast pairOrigin pairOps ∧ RunsWhenBuilt (run pairOps pairOrigin.network) := by
  have steady := steady_simulated .single
  obtain ⟨-, built, -, -, -, -, -, runs, -⟩ := built_all_or_none pairOrigin pairOps
  have hall : AllBuilt (run pairOps pairOrigin.network) := by
    unfold AllBuilt
    decide
  exact ⟨steady, (built (by decide) hall).1, runs steady (by decide) (by decide)⟩

end NeuronKernels.BuiltNetworks
