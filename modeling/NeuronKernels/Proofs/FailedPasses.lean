import NeuronKernels.Proofs.PassFolds

/-!
# Passes that fail

A pass that fails changes nothing here but the outputs, and these only in a forward pass, which sets
them to zero before it makes its first call. On the device it may leave anything behind. The next
pass does not see it: it starts from the same arena with buffers that it sets itself, so it comes to
the same fold as on a network where nothing has failed (`feed_withOutputs`, `train_withOutputs`).
-/

namespace NeuronKernels.FailedPasses
open BinaryFloat ComputeDevice KernelNetwork KernelUnit MemoryArena NetworkErrors NetworkRuns
open NetworkRuns.Operation RecordedCalls CallBlocks DeviceContract PassFolds SimulatedDevice

variable {p : Precision} {δ : Type}

/-- Reads that fail leave alone what they should write over. -/
structure UntouchedReads (p : Precision) (δ : Type) [Device p δ] : Prop where
  outputs : ∀ {values found : List (Value p)} {d d' : δ} {e : NetworkError},
    Device.outputs values d = ((.error e, found), d') → found = values
  memory : ∀ {values found : List (Value p)} {d d' : δ} {e : NetworkError},
    Device.memory values d = ((.error e, found), d') → found = values

theorem untouched_simulated (p : Precision) : UntouchedReads p (Simulated p) := by
  have untouched : ∀ {kind : CallKind} {buffer : Simulated p → List (Value p)}
      {values found : List (Value p)} {d d' : Simulated p} {e : NetworkError},
      Simulated.read kind buffer values d = ((.error e, found), d') → found = values := by
    intro kind buffer values found d d' e h
    simp only [Simulated.read] at h
    split at h
    · cases h
      rfl
    · cases h
  exact ⟨untouched, untouched⟩

section
variable [Device p δ]

theorem UntouchedReads.attachment (h : UntouchedReads p δ) :
    UntouchedReads p (Attachment δ) where
  outputs {values found d d' e} hd := by
    cases d with
    | portable =>
      cases hd
      rfl
    | attached d =>
      obtain ⟨d', rfl, hr⟩ := of_wrap_eq hd
      exact h.outputs hr
  memory {values found d d' e} hd := by
    cases d with
    | portable =>
      cases hd
      rfl
    | attached d =>
      obtain ⟨d', rfl, hr⟩ := of_wrap_eq hd
      exact h.memory hr

theorem UntouchedReads.recorder (h : UntouchedReads p δ) :
    UntouchedReads p (Recorder p δ) where
  outputs {values found r r' e} hr := by
    rcases ho : Device.outputs values r.device with ⟨⟨answer, found'⟩, d⟩
    simp only [Device.outputs, ho, Prod.mk.injEq] at hr
    obtain ⟨⟨rfl, rfl⟩, -⟩ := hr
    exact h.outputs ho
  memory {values found r r' e} hr := by
    rcases ho : Device.memory values r.device with ⟨⟨answer, found'⟩, d⟩
    simp only [Device.memory, ho, Prod.mk.injEq] at hr
    obtain ⟨⟨rfl, rfl⟩, -⟩ := hr
    exact h.memory ho

/-- The network with other outputs, on another state of its device. -/
def withOutputs (n : Network p δ) (outputs : List (Value p)) (d : Attachment δ) : Network p δ :=
  { n with arena := { n.arena with outputs := outputs }, device := d }

omit [Device p δ] in
theorem onto_cleared (n : Network p δ) (d : Attachment δ) :
    onto (cleared n) d = withOutputs n (zeros n) d := by
  simp only [onto, cleared, withOutputs, zeros, Arena.fillOutputs, List.map_const']

theorem fetchOutputs_error (h : UntouchedReads p δ) {n m : Network p δ} {e : NetworkError}
    (hr : n.fetchOutputs = (.error e, m)) : ∃ d, m = onto n d := by
  obtain ⟨found, d, hread, rfl⟩ := of_fetchOutputs_eq hr
  have hfound : found = n.arena.outputs := h.attachment.outputs hread
  have hsame : n.arena.overwriteOutputs found = n.arena := by
    rw [hfound, Arena.overwriteOutputs, overlay_eq rfl]
  exact ⟨d, by rw [hsame, onto]⟩

theorem fetchMemory_error (h : UntouchedReads p δ) {n m : Network p δ} {e : NetworkError}
    (hr : n.fetchMemory = (.error e, m)) : ∃ d, m = onto n d := by
  obtain ⟨found, d, hread, rfl⟩ := of_fetchMemory_eq hr
  have hfound : found = n.arena.memory := h.attachment.memory hread
  have hsame : n.arena.overwriteMemory found = n.arena := by
    rw [hfound, Arena.overwriteMemory, overlay_eq rfl]
  exact ⟨d, by rw [hsame, onto]⟩

/-- A forward pass that fails before its last read leaves outputs of zero. -/
theorem executeFeed_error (h : UntouchedReads p δ) {n after : Network p δ}
    {inputs : List (Value p)} {e : NetworkError}
    (he : n.executeFeed inputs = (.error e, after)) :
    (∃ d, after = withOutputs n (zeros n) d) ∨
      ∃ outputs d, Called p n.device d ∧ outputs.length = n.arena.outputs.length ∧
        (withOutputs n outputs d).fetchMemory = (.error e, after) := by
  rw [executeFeed_eq] at he
  obtain ⟨d, -, rfl⟩ | ⟨_, d, hrun, he⟩ := of_andThen_eq_error he
  · exact .inl ⟨d, onto_cleared n d⟩
  rw [onto_cleared] at he
  obtain ⟨m, houtputs, rfl⟩ | ⟨_, m, houtputs, he⟩ := of_andThen_eq_error he
  · obtain ⟨d', rfl⟩ := fetchOutputs_error h houtputs
    exact .inl ⟨d', rfl⟩
  obtain ⟨m', hmemory, rfl⟩ | ⟨_, m', -, he⟩ := of_andThen_eq_error he
  · obtain ⟨found, d', hread, rfl⟩ := of_fetchOutputs_eq houtputs
    have hpass : Called p n.device d := by
      have hcalled := called_runPass (cleared n)
        (.stageFeed inputs (cleared n).arena.outputs.length) .feed
      rwa [hrun] at hcalled
    have hcalled : Called p n.device d' := by
      have houts := hpass.outputs (withOutputs n (zeros n) d).arena.outputs
      rwa [show Device.outputs _ d = _ from hread] at houts
    have hlength : (Arena.overlay found (zeros n)).length = n.arena.outputs.length := by
      rw [Arena.length_overlay, zeros, List.length_replicate]
    exact .inr ⟨Arena.overlay found (zeros n), d', hcalled, hlength, hmemory⟩
  · cases he

theorem executeTrain_error (h : UntouchedReads p δ) {n after : Network p δ} {rate : Value p}
    {targets : List (Value p)} {e : NetworkError}
    (he : n.executeTrain rate targets = (.error e, after)) : ∃ d, after = onto n d := by
  rw [executeTrain_eq] at he
  obtain ⟨d, -, rfl⟩ | ⟨_, d, -, hmemory⟩ := of_andThen_eq_error he
  · exact ⟨d, rfl⟩
  · obtain ⟨d', rfl⟩ := fetchMemory_error h hmemory
    exact ⟨d', rfl⟩

/-- The last call is the read of the arena, and it failed. -/
def LastReadFailed (calls : List (Exchange p)) (count : Nat) (e : NetworkError) : Prop :=
  calls.getLast? = some ⟨.memory count, .error e⟩

theorem lastReadFailed_fetchMemory {n after : Network p (Recorder p δ)} {e : NetworkError}
    {log : List (Exchange p)} (hlog : networkLog n = some log)
    (hr : n.fetchMemory = (.error e, after)) :
    LastReadFailed ((networkLog after).getD []) n.arena.memory.length e := by
  obtain ⟨made, hf, hv⟩ := grows_fetchMemory hlog
  rw [hr] at hf hv
  obtain ⟨done, x, rest, hblock, rfl⟩ := hf
  obtain ⟨rfl, rfl, rfl⟩ : done = [] ∧ x = ⟨.memory n.arena.memory.length, .ok none⟩ ∧
      rest = [] := by
    cases done <;> simp_all
  simp [LastReadFailed, hv]

/-- A forward pass as the recorder around the device sees it. -/
theorem feed_recorded {n : Network p δ} (hx : n.isExecutable .feed = true)
    {inputs : List (Value p)} {result : Except NetworkError (List (Value p))}
    {after : Network p (Recorder p δ)}
    (hrun : (record n).executeFeed inputs = (result, after)) :
    (n.feed inputs).result = result ∧
      (n.feed inputs).network = carryNetwork Recorder.device after ∧
      calls (.feed inputs) n = (networkLog after).getD [] := by
  obtain ⟨hr, hn⟩ := feed_executed ((isExecutable_record n .feed).trans hx) inputs
  obtain ⟨hr', hn'⟩ := faithful_device.feed (record n) inputs
  have hcalls : calls (.feed inputs) n =
      (networkLog ((record n).feed inputs).network).getD [] := rfl
  rw [erase_record] at hr' hn'
  rw [hrun] at hr hn
  exact ⟨hr'.trans hr, by rw [hn', hn], by rw [hcalls, hn]⟩

omit [Device p δ] in
theorem erase_withOutputs (n : Network p δ) (outputs : List (Value p))
    (d : Attachment (Recorder p δ)) :
    carryNetwork Recorder.device (withOutputs (record n) outputs d) =
      withOutputs n outputs (carry Recorder.device d) := by
  have hw : carryNetwork Recorder.device (withOutputs (record n) outputs d) =
      withOutputs (carryNetwork Recorder.device (record n)) outputs
        (carry Recorder.device d) := rfl
  rw [hw, erase_record]

/-- What a failed forward pass leaves: the network with outputs of zero, or with those of the device
when nothing but the last read has failed. -/
theorem feed_error (h : UntouchedReads p δ) {n : Network p δ} {inputs : List (Value p)}
    {e : NetworkError} (he : (n.feed inputs).result = .error e) :
    ∃ outputs d, (n.feed inputs).network = withOutputs n outputs d ∧
      outputs.length = n.arena.outputs.length ∧
      (outputs = zeros n ∨
        LastReadFailed (calls (.feed inputs) n) n.arena.memory.length e) := by
  cases hx : n.isExecutable .feed with
  | false =>
    rw [(feed_idle hx inputs).1] at he
    cases he
  | true =>
    rcases hrun : (record n).executeFeed inputs with ⟨result, after⟩
    obtain ⟨hr, hn, hcalls⟩ := feed_recorded hx hrun
    obtain rfl : result = .error e := hr.symm.trans he
    rw [hn, hcalls]
    obtain ⟨d, rfl⟩ | ⟨outputs, d, hd, hl, hmemory⟩ := executeFeed_error h.recorder hrun
    · have hz : (zeros (record n)).length = n.arena.outputs.length := List.length_replicate
      exact ⟨_, _, erase_withOutputs n _ d, hz, .inl rfl⟩
    · obtain ⟨d', rfl⟩ := fetchMemory_error h.recorder hmemory
      have hlog : networkLog (record n) = some [] :=
        networkLog_record ((isExecutable_iff n .feed).mp hx).1
      obtain ⟨r, hr₀, -⟩ := attached_of_log hlog
      rw [hr₀] at hd
      obtain ⟨r', rfl⟩ := hd.attached
      exact ⟨_, _, erase_withOutputs n outputs d', hl,
        .inr (lastReadFailed_fetchMemory rfl hmemory)⟩

theorem train_error (h : UntouchedReads p δ) {n : Network p δ} {rate : Value p}
    {targets : List (Value p)} {e : NetworkError}
    (he : (n.train rate targets).result = .error e) :
    ∃ d, (n.train rate targets).network = onto n d := by
  cases hx : n.isExecutable .train with
  | false =>
    rw [(train_idle hx rate targets).1] at he
    cases he
  | true =>
    obtain ⟨hr, hn⟩ := train_executed hx rate targets
    have hrun : n.executeTrain rate targets = (.error e, (n.executeTrain rate targets).2) :=
      Prod.ext (hr.symm.trans he) rfl
    rw [hn]
    exact executeTrain_error h hrun

theorem arena_compile (n : Network p δ) : n.compile.network.arena = n.arena := by
  obtain ⟨_, d, -, -, hn⟩ | ⟨handles, d, -, -, -, -, hn⟩ := compile_cases n
  · rw [hn]
    rfl
  · rw [hn]
    rfl

section
variable {view : View p (Attachment δ)} (h : Obeys view) {n : Network p δ}
  {outputs : List (Value p)} {d d' : Attachment δ}

omit view in
theorem isExecutable_withOutputs (outputs : List (Value p))
    (ha : Device.accelerated p d' = Device.accelerated p d) (pass : Pass) :
    (withOutputs n outputs d').isExecutable pass = (onto n d).isExecutable pass := by
  have hk : (withOutputs n outputs d').kernelsOf pass = (onto n d).kernelsOf pass := by
    cases pass <;> rfl
  have hd : Device.accelerated p (withOutputs n outputs d').device =
      Device.accelerated p (onto n d).device := ha
  rw [Network.isExecutable, Network.isExecutable, hk, hd]

include h

theorem feed_withOutputs (hl : outputs.length = n.arena.outputs.length)
    (hp : view.program d' = view.program d)
    (ha : Device.accelerated p d' = Device.accelerated p d)
    (hidle : (onto n d).isExecutable .feed = false → outputs = n.arena.outputs)
    (hs : Serving (view.program d) n .feed)
    {inputs : List (Value p)} (hf : FaultFree (.feed inputs) (onto n d))
    (hf' : FaultFree (.feed inputs) (withOutputs n outputs d')) :
    ((withOutputs n outputs d').feed inputs).result = ((onto n d).feed inputs).result ∧
      ((withOutputs n outputs d').feed inputs).network.arena =
        ((onto n d).feed inputs).network.arena := by
  have hsame : (withOutputs n outputs d').isExecutable .feed = (onto n d).isExecutable .feed :=
    isExecutable_withOutputs outputs ha .feed
  cases hx : (onto n d).isExecutable .feed with
  | false =>
    obtain ⟨hr, hn⟩ := feed_idle hx inputs
    obtain ⟨hr', hn'⟩ := feed_idle (hsame.trans hx) inputs
    rw [hr, hr', hn, hn', hidle hx]
    exact ⟨rfl, rfl⟩
  | true =>
    have hstart : feedStart (withOutputs n outputs d') = feedStart (onto n d) := by
      rw [feedStart, zeros, show (withOutputs n outputs d').arena.outputs = outputs from rfl, hl]
      rfl
    have hserves : Serving (view.program d') n .feed := hp ▸ hs
    obtain ⟨hr, hn⟩ := feed_folds h hx hs hf
    obtain ⟨hr', hn'⟩ := feed_folds h (hsame.trans hx) hserves hf'
    rw [hstart, show (withOutputs n outputs d').device = d' from rfl, hp] at hr' hn'
    exact ⟨hr'.trans hr.symm, hn'.trans hn.symm⟩

theorem train_withOutputs (hp : view.program d' = view.program d)
    (ha : Device.accelerated p d' = Device.accelerated p d)
    (hs : Serving (view.program d) n .train)
    {rate : Value p} {targets : List (Value p)}
    (hf : FaultFree (.train rate targets) (onto n d))
    (hf' : FaultFree (.train rate targets) (withOutputs n outputs d')) :
    ((withOutputs n outputs d').train rate targets).result =
        ((onto n d).train rate targets).result ∧
      ((withOutputs n outputs d').train rate targets).network.arena =
        { ((onto n d).train rate targets).network.arena with outputs := outputs } := by
  have hsame : (withOutputs n outputs d').isExecutable .train = (onto n d).isExecutable .train :=
    isExecutable_withOutputs outputs ha .train
  cases hx : (onto n d).isExecutable .train with
  | false =>
    obtain ⟨hr, hn⟩ := train_idle hx rate targets
    obtain ⟨hr', hn'⟩ := train_idle (hsame.trans hx) rate targets
    rw [hr, hr', hn, hn']
    exact ⟨rfl, rfl⟩
  | true =>
    have hserves : Serving (view.program d') n .train := hp ▸ hs
    obtain ⟨hr, hn⟩ := train_folds h hx hs hf
    obtain ⟨hr', hn'⟩ := train_folds h (hsame.trans hx) hserves hf'
    rw [show (withOutputs n outputs d').device = d' from rfl, hp] at hn'
    rw [hn, hn']
    exact ⟨hr'.trans hr.symm, rfl⟩

end

/-- Passes of the second network in which no call fails come to the same as on the first one, in any
state of its device with the same program. A training pass leaves the outputs as they are. -/
structure Retries (view : View p δ) (n after : Network p δ) : Prop where
  feed : ∀ d inputs, view.attachment.program d = view.attachment.program n.device →
    Device.accelerated p d = Device.accelerated p n.device →
    Serving (view.attachment.program n.device) n .feed →
    FaultFree (.feed inputs) (onto n d) → FaultFree (.feed inputs) after →
      (after.feed inputs).result = ((onto n d).feed inputs).result ∧
      (after.feed inputs).network.arena = ((onto n d).feed inputs).network.arena
  train : ∀ d rate targets, view.attachment.program d = view.attachment.program n.device →
    Device.accelerated p d = Device.accelerated p n.device →
    Serving (view.attachment.program n.device) n .train →
    FaultFree (.train rate targets) (onto n d) → FaultFree (.train rate targets) after →
      (after.train rate targets).result = ((onto n d).train rate targets).result ∧
      (after.train rate targets).network.arena =
        { ((onto n d).train rate targets).network.arena with outputs := after.arena.outputs }

theorem retries_withOutputs {view : View p δ} (h : Obeys view) {n : Network p δ}
    (outputs : List (Value p)) (hl : outputs.length = n.arena.outputs.length)
    {d' : Attachment δ} (hp : view.attachment.program d' = view.attachment.program n.device)
    (ha : Device.accelerated p d' = Device.accelerated p n.device)
    (hidle : n.isExecutable .feed = false → outputs = n.arena.outputs) :
    Retries view n (withOutputs n outputs d') where
  feed d inputs hd hacc hs hf hf' := by
    have hsame : n.isExecutable .feed = (onto n d).isExecutable .feed :=
      isExecutable_withOutputs n.arena.outputs hacc.symm .feed
    exact feed_withOutputs h.attachment hl (hp.trans hd.symm) (ha.trans hacc.symm)
      (fun hx => hidle (hsame.trans hx)) (hd ▸ hs) hf hf'
  train d rate targets hd hacc hs hf hf' :=
    train_withOutputs h.attachment (hp.trans hd.symm) (ha.trans hacc.symm) (hd ▸ hs) hf hf'

/-- A pass that fails leaves the arena, its bindings and the kernels with their handles as they
were, and a forward pass leaves outputs of zero unless its last read is what failed; compiling never
changes the arena. On a device that keeps its promise the pass can be tried again: the next passes
do not see that it has failed. -/
theorem failed_passes_harmless (untouched : UntouchedReads p δ) (n : Network p δ) :
    (∀ inputs e, (n.feed inputs).result = .error e →
      ∃ outputs d, (n.feed inputs).network = withOutputs n outputs d ∧
        outputs.length = n.arena.outputs.length ∧
        (outputs = zeros n ∨
          LastReadFailed (calls (.feed inputs) n) n.arena.memory.length e)) ∧
    (∀ rate targets e, (n.train rate targets).result = .error e →
      ∃ d, (n.train rate targets).network = onto n d) ∧
    n.compile.network.arena = n.arena ∧
    ∀ view : View p δ, Obeys view → Steady p δ →
      (∀ inputs e, (n.feed inputs).result = .error e →
        Retries view n (n.feed inputs).network) ∧
      (∀ rate targets e, (n.train rate targets).result = .error e →
        Retries view n (n.train rate targets).network) := by
  refine ⟨fun inputs e => feed_error untouched, fun rate targets e => train_error untouched,
    arena_compile n, fun view h steady => ⟨?_, ?_⟩⟩
  · intro inputs e he
    have hp := h.attachment.program_feed n inputs
    obtain ⟨a, d', hcalled, hd⟩ := touched_feed n inputs
    have ha := steady.attachment.called hcalled
    have hx : n.isExecutable .feed ≠ false := by
      intro hx
      rw [(feed_idle hx inputs).1] at he
      cases he
    obtain ⟨outputs, d, hn, hl, -⟩ := feed_error untouched he
    rw [hn] at hp hd ⊢
    obtain rfl : d = d' := congrArg Network.device hd
    exact retries_withOutputs h outputs hl hp ha fun hx' => absurd hx' hx
  · intro rate targets e he
    have hp := h.attachment.program_train n rate targets
    obtain ⟨a, d', hcalled, hd⟩ := touched_train n rate targets
    have ha := steady.attachment.called hcalled
    obtain ⟨d, hn⟩ := train_error untouched he
    rw [hn] at hp hd ⊢
    obtain rfl : d = d' := congrArg Network.device hd
    exact retries_withOutputs h n.arena.outputs rfl hp ha fun _ => rfl

end

/-- The first forward pass will fail at its second kernel. -/
def faultyNetwork : Network .single (Simulated .single) :=
  run (slotsOps.take 2) slotsOrigin.network

theorem failed_feed_faulty :
    let after := (faultyNetwork.feed [.ofNat 5]).network
    UntouchedReads .single (Simulated .single) ∧ Obeys (simulatedView .single) ∧
      Steady .single (Simulated .single) ∧
      (faultyNetwork.feed [.ofNat 5]).result = .error (.dispatch "injected finish") ∧
      after.arena.memory = [.ofNat 3, .ofNat 4] ∧ after.arena.outputs = [.zero] ∧
      FaultFree (.feed [.ofNat 5]) after ∧
      (after.feed [.ofNat 5]).result = .ok [.ofNat 4] := by
  intro after
  have untouched := untouched_simulated .single
  have hobeys := obeys_simulated .single
  have steady := steady_simulated .single
  have he : (faultyNetwork.feed [.ofNat 5]).result = .error (.dispatch "injected finish") := by
    decide +kernel
  have hf : FaultFree (.feed [.ofNat 5]) after := by
    unfold FaultFree
    decide +kernel
  obtain ⟨hfeed, -, -, hretry⟩ := failed_passes_harmless untouched faultyNetwork
  obtain ⟨outputs, d, hn, -, hout⟩ := hfeed [.ofNat 5] _ he
  have hmemory : after.arena.memory = [.ofNat 3, .ofNat 4] := by
    rw [show after = withOutputs faultyNetwork outputs d from hn]
    change faultyNetwork.arena.memory = _
    decide +kernel
  have hlast : (calls (.feed [.ofNat 5]) faultyNetwork).getLast?.map Exchange.call =
      some (.order .finish) := by decide +kernel
  have hcalls : ¬ LastReadFailed (calls (.feed [.ofNat 5]) faultyNetwork) 2
      (.dispatch "injected finish") := by
    intro hread
    rw [hread] at hlast
    cases hlast
  have hzero : after.arena.outputs = [.zero] := by
    rw [show after = withOutputs faultyNetwork outputs d from hn]
    exact (hout.resolve_right hcalls).trans (by decide +kernel)
  let fresh : Attachment (Simulated .single) := .attached (Simulated.start .single [] false [])
  have hf' : FaultFree (.feed [.ofNat 5]) (onto faultyNetwork fresh) := by
    unfold FaultFree
    decide +kernel
  obtain ⟨hr, -⟩ := ((hretry _ hobeys steady).1 [.ofNat 5] _ he).feed fresh [.ofNat 5] rfl rfl
    (fun _ _ => trivial) hf' hf
  refine ⟨untouched, hobeys, steady, he, hmemory, hzero, hf, hr.trans ?_⟩
  decide +kernel

end NeuronKernels.FailedPasses
