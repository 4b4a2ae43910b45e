import NeuronKernels.Proofs.FailedPasses
import NeuronKernels.Proofs.StoredNetworks

/-!
# Networks that are restored from their stored form

A compiled network can be stored, made again from its stored form on another device of the same kind
and compiled there. The new network has the same kernels with the same handles, because a handle is
the place of an entry point in the program (`handles_program`), and its device holds the same
program. Two networks that agree in this (`Twin`) go on agreeing with every step, whatever their
devices hold besides.
-/

namespace NeuronKernels.RestoredNetworks
open BinaryFloat ComputeDevice KernelNetwork KernelUnit MemoryArena NetworkErrors NetworkRuns
open NetworkRuns.Operation BuiltNetworks DeviceContract PassFolds FailedPasses StoredNetworks
open SimulatedDevice

variable {p : Precision} {δ : Type}

/-- What devices of one kind have in common: which entry points the program of a device has, and
what the kernels of a program do. -/
structure Kind (p : Precision) (δ : Type) where
  entryPoints : δ → List String
  effect : List Source → Effect p

/-- The place of an entry point in a program, the first one if it is there more than once. -/
def place (entryPoints : List String) (name : String) : Option Nat :=
  entryPoints.findIdx? (· == name)

/-- A build makes the sources the program, and a handle is a place in the program. -/
structure OfKind [Device p δ] (kind : Kind p δ) (view : View p δ) : Prop where
  build : ∀ {sources : List Source} {d e : δ},
    Device.order (.build sources : Order p) d = (.ok (), e) →
      kind.entryPoints e = sources.map Source.entryPoint ∧ view.program e = kind.effect sources
  handleOf : ∀ {name : String} {handle : Nat} {d e : δ},
    Device.handleOf p name d = (.ok handle, e) →
      place (kind.entryPoints d) name = some handle ∧ kind.entryPoints e = kind.entryPoints d

/-- The kind of the device that is attached; the portable one has no program. -/
def Kind.attachment (kind : Kind p δ) : Kind p (Attachment δ) where
  entryPoints
    | .portable => []
    | .attached d => kind.entryPoints d
  effect := kind.effect

theorem OfKind.attachment [Device p δ] {kind : Kind p δ} {view : View p δ}
    (h : OfKind kind view) : OfKind kind.attachment view.attachment where
  build {sources d e} hd := by
    cases d with
    | portable => cases hd
    | attached d =>
      obtain ⟨e, rfl, he⟩ := of_wrap_eq hd
      exact h.build he
  handleOf {name handle d e} hd := by
    cases d with
    | portable => cases hd
    | attached d =>
      obtain ⟨e, rfl, he⟩ := of_wrap_eq hd
      exact h.handleOf he

section
variable [Device p δ] {kind : Kind p (Attachment δ)} {view : View p (Attachment δ)}

theorem places_handlesOf (h : OfKind kind view) {names : List String} {handles : List Nat}
    {d e : Attachment δ} (hd : handlesOf p names d = (.ok handles, e)) :
    handles.map some = names.map (place (kind.entryPoints d)) := by
  induction names generalizing handles d with
  | nil =>
    cases hd
    rfl
  | cons name names ih =>
    rw [handlesOf_cons] at hd
    obtain ⟨handle, d', hfirst, hd⟩ := of_andThen_eq hd
    obtain ⟨rest, e', hrest, hd⟩ := of_andThen_eq hd
    cases hd
    obtain ⟨hplace, hkept⟩ := h.handleOf hfirst
    rw [List.map_cons, List.map_cons, ih hrest, hkept, hplace]

theorem program_handlesOf (h : Obeys view) (names : List String) (d : Attachment δ) :
    view.program (handlesOf p names d).2 = view.program d := by
  induction names generalizing d with
  | nil => rfl
  | cons name names ih =>
    have hrest : ∀ (handle : Nat) e, view.program
        (andThen (handlesOf p names e) id fun handles d => (.ok (handle :: handles), d)).2 =
          view.program e := by
      intro handle e
      exact Eq.trans (andThen_carries (f := view.program) (fun _ => rfl) fun _ _ => rfl) (ih e)
    rw [handlesOf_cons]
    exact Eq.trans (andThen_carries (f := view.program) (fun _ => rfl) hrest)
      (h.program_handleOf name d)

/-- The handles that the sources of a program have in it. -/
def places (sources : List Source) : List (Option Nat) :=
  (sources.map Source.entryPoint).map (place (sources.map Source.entryPoint))

/-- The handles that compiling comes to are the places of the kernels. -/
theorem places_program (hk : OfKind kind view) {n : Network p δ} {handles : List Nat}
    {e : Attachment δ} (hp : program n = (.ok handles, e)) :
    handles.map some = places (n.kernels.map Kernel.source) := by
  obtain ⟨_, d, hbuild, hp⟩ := of_andThen_eq hp
  obtain ⟨found, d', hfound, hp⟩ := of_andThen_eq hp
  obtain ⟨_, d'', -, hp⟩ := of_andThen_eq hp
  cases hp
  have hnames : (n.kernels.map Kernel.source).map Source.entryPoint =
      n.kernels.map Kernel.entryPoint := List.map_map
  rw [places_handlesOf hk hfound, (hk.build hbuild).1, places, hnames]

/-- Compiling comes to the places of the kernels, and to the program of their sources. -/
theorem handles_program (h : Obeys view) (hk : OfKind kind view) {n : Network p δ}
    {handles : List Nat} {e : Attachment δ} (hp : program n = (.ok handles, e)) :
    handles.map some = places (n.kernels.map Kernel.source) ∧
      view.program e = kind.effect (n.kernels.map Kernel.source) := by
  refine ⟨places_program hk hp, ?_⟩
  obtain ⟨_, d, hbuild, hp⟩ := of_andThen_eq hp
  obtain ⟨found, d', hfound, hp⟩ := of_andThen_eq hp
  obtain ⟨_, d'', hupload, hp⟩ := of_andThen_eq hp
  cases hp
  have hlooked := program_handlesOf h (n.kernels.map Kernel.entryPoint) d
  have hsent := h.program_order (show Running (.upload n.arena.memory) from trivial) d'
  rw [hfound] at hlooked
  rw [hupload] at hsent
  exact hsent.trans (hlooked.trans (hk.build hbuild).2)

/-- The network is compiled: its kernels have their places as handles, and its device, which is
accelerated, holds their program. -/
structure Compiled (kind : Kind p (Attachment δ)) (view : View p (Attachment δ))
    (n : Network p δ) : Prop where
  handles : n.kernels.map Kernel.handle = places (n.kernels.map Kernel.source)
  program : view.program n.device = kind.effect (n.kernels.map Kernel.source)
  accelerated : Device.accelerated p n.device = true

theorem of_compile_ok {n : Network p δ} (hr : n.compile.result = .ok ()) :
    ∃ handles e, program n.unbind = (.ok handles, e) ∧
      n.compile.network = onto (n.unbind.bind handles) e := by
  cases ha : Device.accelerated p n.device with
  | false =>
    rw [(compile_refused ha).1] at hr
    cases hr
  | true =>
    obtain ⟨hresult, hnetwork⟩ := compile_accelerated ha
    rcases hp : program n.unbind with ⟨e | handles, e⟩
    · rw [hresult, hp] at hr
      cases hr
    · rw [hp] at hnetwork
      exact ⟨handles, e, rfl, hnetwork⟩

/-- Compiling that goes well binds the kernels to their places. -/
theorem compile_ok (h : Obeys view) (hk : OfKind kind view) {n : Network p δ}
    (hr : n.compile.result = .ok ()) :
    ∃ handles e, n.compile.network = onto (n.unbind.bind handles) e ∧
      handles.length = n.unbind.kernels.length ∧
      handles.map some = places (n.kernels.map Kernel.source) ∧
      view.program e = kind.effect (n.kernels.map Kernel.source) := by
  obtain ⟨handles, e, hp, hnetwork⟩ := of_compile_ok hr
  obtain ⟨hplaces, hprogram⟩ := handles_program h hk hp
  rw [sources_unbind] at hplaces hprogram
  exact ⟨handles, e, hnetwork, length_of_program (congrArg Prod.fst hp), hplaces, hprogram⟩

theorem compiled_compile (h : Obeys view) (hk : OfKind kind view)
    (steady : Steady p (Attachment δ)) {n : Network p δ} (hr : n.compile.result = .ok ()) :
    Compiled kind view n.compile.network := by
  obtain ⟨handles, e, hnetwork, hlength, hplaces, hprogram⟩ := compile_ok h hk hr
  have hsources := sources_compile n
  constructor
  · rw [hsources, ← hplaces, hnetwork]
    exact handles_bind hlength
  · rw [hsources, ← hprogram, hnetwork]
    rfl
  · obtain ⟨_, _, -, he, -⟩ | ⟨_, d, hd, -, ha, -, hn⟩ := compile_cases n
    · rw [he] at hr
      cases hr
    · rw [hn]
      exact (steady.called hd).trans ha

/-- What is quiet leaves a network compiled. -/
theorem Compiled.after (h : Obeys view) (steady : Steady p (Attachment δ)) {n : Network p δ}
    (hn : Compiled kind view n) {op : Operation p δ} (hq : op.Quiet) :
    Compiled kind view (op.after n) := by
  have hprogram := h.program_after hq n
  obtain ⟨a, d, hd, hafter⟩ := hq.touched n
  rw [hafter] at hprogram ⊢
  exact ⟨hn.handles, hprogram.trans hn.program, (steady.called hd).trans hn.accelerated⟩

theorem compiled_last (h : Obeys view) (hk : OfKind kind view) (steady : Steady p (Attachment δ))
    {origin : Origin p} {ops : List (Operation p δ)} (hb : BuiltLast origin ops) :
    Compiled kind view (run ops origin.network) := by
  obtain ⟨earlier, later, handles, rfl, hq, hbuilt⟩ := hb
  rw [List.append_cons, run_append, run_concat]
  have hstart : Compiled kind view ((Operation.compile).after (run earlier origin.network)) :=
    compiled_compile h hk steady hbuilt.returned
  generalize (Operation.compile).after (run earlier origin.network) = n at hstart
  clear hbuilt
  induction later generalizing n with
  | nil => exact hstart
  | cons op later ih =>
    exact ih (fun op ho => hq op (by simp [ho])) _ (hstart.after h steady (hq op (by simp)))

end

/-- Handles beyond the last kernel do not count. -/
theorem zipWith_bind_unbind {ks : List Kernel} {handles : List Nat}
    (h : ks.map Kernel.handle = (handles.take ks.length).map some) :
    (ks.map Kernel.unbind).zipWith Kernel.bind handles = ks := by
  induction ks generalizing handles with
  | nil => rfl
  | cons k ks ih =>
    cases handles with
    | nil => cases h
    | cons handle handles =>
      obtain ⟨hk, hks⟩ := List.cons.inj h
      have hsame : k.unbind.bind handle = k := by
        rw [Kernel.bind, ← hk, Kernel.unbind]
      rw [List.map_cons, List.zipWith_cons_cons, ih hks, hsame]

theorem bind_unbind {n : Network p δ} {handles : List Nat}
    (h : n.kernels.map Kernel.handle = handles.map some) : n.unbind.bind handles = n := by
  have hfeed := zipWith_bind_unbind (handles_feed h)
  have htrain : (n.trainKernels.map Kernel.unbind).zipWith Kernel.bind
      (handles.drop n.feedKernels.length) = n.trainKernels := by
    apply zipWith_bind_unbind
    rw [List.take_of_length_le]
    · exact handles_train h
    · simpa using Nat.le_of_eq (congrArg List.length (handles_train h)).symm
  have hlength : (n.feedKernels.map Kernel.unbind).length = n.feedKernels.length :=
    List.length_map _
  simp only [Network.bind, Network.unbind, Network.mapKernels, hfeed, hlength, htrain]

/-- The network of the stored form of another one, on a device of its own. -/
def restored (n : Network p δ) (d : Attachment δ) : Network p δ :=
  (Network.ofRecord n.arena n.toRecord).withDevice d

theorem restored_eq {n : Network p δ} (h : InPass n) (d : Attachment δ) :
    restored n d = onto n.unbind d := by
  have hload : (Network.ofRecord n.arena n.toRecord : Network p δ) =
      onto n.unbind .portable := by
    rw [Network.ofRecord, loadRecord_toRecord h]
    rfl
  have hunbind : (onto n.unbind .portable).unbind = onto n.unbind .portable := by
    change onto n.unbind.unbind .portable = _
    rw [unbind_unbind]
  rw [restored, Network.withDevice, hload, hunbind]
  rfl

/-- A restored network that is compiled has the kernels of the network that was stored, with the
same handles. -/
theorem compile_restored [Device p δ] {kind : Kind p (Attachment δ)}
    {view : View p (Attachment δ)} (h : Obeys view) (hk : OfKind kind view) {n : Network p δ}
    (hpass : InPass n) (hn : n.kernels.map Kernel.handle = places (n.kernels.map Kernel.source))
    {d : Attachment δ} (hr : (restored n d).compile.result = .ok ()) :
    ∃ e, (restored n d).compile.network = onto n e ∧
      view.program e = kind.effect (n.kernels.map Kernel.source) := by
  obtain ⟨handles, e, hnetwork, -, hplaces, hprogram⟩ := compile_ok h hk hr
  have hsources : (restored n d).kernels.map Kernel.source = n.kernels.map Kernel.source := by
    rw [restored_eq hpass]
    exact sources_unbind n
  have hbound : n.unbind.bind handles = n := bind_unbind (by rw [hn, ← hsources, hplaces])
  have hunbound : (restored n d).unbind.bind handles = onto n d := by
    rw [restored_eq hpass]
    change onto (n.unbind.unbind.bind handles) d = _
    rw [unbind_unbind, hbound]
  rw [hsources] at hprogram
  rw [hunbound] at hnetwork
  exact ⟨e, hnetwork, hprogram⟩

/-- A pass, or a change of the arena. -/
inductive Step (p : Precision)
  | feed (inputs : List (Value p))
  | train (rate : Value p) (targets : List (Value p))
  | edit (change : Arena p → Arena p)

def Step.operation : Step p → Operation p δ
  | .feed inputs => .feed inputs
  | .train rate targets => .train rate targets
  | .edit change => .edit change

theorem Step.quiet (s : Step p) : (s.operation : Operation p δ).Quiet := by
  cases s <;> rfl

section
variable [Device p δ]

/-- What a step gives back; only a forward pass gives values. -/
def Step.answer (n : Network p δ) : Step p → Except NetworkError (List (Value p))
  | .feed inputs => (n.feed inputs).result
  | .train rate targets => (n.train rate targets).result.map fun _ => []
  | .edit _ => .ok []

/-- What steps in a row give back, each with the arena that it leaves. -/
def trace : List (Step p) → Network p δ → List (Except NetworkError (List (Value p)) × Arena p)
  | [], _ => []
  | s :: rest, n =>
    (s.answer n, (s.operation.after n).arena) :: trace rest (s.operation.after n)

/-- No call of any step fails. -/
def FaultFreeSteps : List (Step p) → Network p δ → Prop
  | [], _ => True
  | s :: rest, n => FaultFree s.operation n ∧ FaultFreeSteps rest (s.operation.after n)

/-- The networks differ at most in their devices, and these are accelerated alike and hold the same
program, which serves the passes. -/
structure Twin (view : View p (Attachment δ)) (n m : Network p δ) : Prop where
  same : m = onto n m.device
  program : view.program m.device = view.program n.device
  accelerated : Device.accelerated p m.device = Device.accelerated p n.device
  serving : ∀ pass, Serving (view.program n.device) n pass

variable {view : View p (Attachment δ)} {n m : Network p δ}

theorem Twin.feed (h : Obeys view) (ht : Twin view n m) {inputs : List (Value p)}
    (hf : FaultFree (.feed inputs) n) (hf' : FaultFree (.feed inputs) m) :
    (m.feed inputs).result = (n.feed inputs).result ∧
      (m.feed inputs).network.arena = (n.feed inputs).network.arena := by
  have hsame : m = withOutputs n n.arena.outputs m.device := ht.same
  rw [hsame] at hf' ⊢
  exact feed_withOutputs (d := n.device) h rfl ht.program ht.accelerated (fun _ => rfl)
    (ht.serving .feed) hf hf'

theorem Twin.train (h : Obeys view) (ht : Twin view n m) {rate : Value p}
    {targets : List (Value p)} (hf : FaultFree (.train rate targets) n)
    (hf' : FaultFree (.train rate targets) m) :
    (m.train rate targets).result = (n.train rate targets).result ∧
      (m.train rate targets).network.arena = (n.train rate targets).network.arena := by
  have hsame : m = withOutputs n n.arena.outputs m.device := ht.same
  -- Compared with itself, the network shows that training leaves its outputs.
  have hkept : (n.train rate targets).network.arena =
      { (n.train rate targets).network.arena with outputs := n.arena.outputs } :=
    (train_withOutputs (d := n.device) h rfl rfl (ht.serving .train) hf hf).2
  rw [hsame] at hf' ⊢
  obtain ⟨hr, ha⟩ := train_withOutputs (d := n.device) h ht.program ht.accelerated
    (ht.serving .train) hf hf'
  exact ⟨hr, ha.trans hkept.symm⟩

/-- A step in which no call fails comes to the same on both networks, and they stay twins. -/
theorem Twin.step (h : Obeys view) (steady : Steady p (Attachment δ)) (ht : Twin view n m)
    {s : Step p} (hf : FaultFree s.operation n) (hf' : FaultFree s.operation m) :
    s.answer m = s.answer n ∧ (s.operation.after m).arena = (s.operation.after n).arena ∧
      Twin view (s.operation.after n) (s.operation.after m) := by
  have hboth : s.answer m = s.answer n ∧
      (s.operation.after m).arena = (s.operation.after n).arena := by
    cases s with
    | feed inputs => exact ht.feed h hf hf'
    | train rate targets =>
      obtain ⟨hr, ha⟩ := ht.train h hf hf'
      exact ⟨congrArg (Except.map fun _ => []) hr, ha⟩
    | edit change =>
      have harena : m.arena = n.arena := (congrArg Network.arena ht.same).trans rfl
      exact ⟨rfl, congrArg change harena⟩
  refine ⟨hboth.1, hboth.2, ?_⟩
  have hprogram := h.program_after s.quiet n
  have hprogram' := h.program_after s.quiet m
  obtain ⟨a, d, hd, hn⟩ := s.quiet.touched n
  obtain ⟨a', d', hd', hm⟩ := s.quiet.touched m
  have harena := hboth.2
  rw [hn, hm] at harena
  rw [hn] at hprogram ⊢
  rw [hm] at hprogram' ⊢
  constructor
  · rw [ht.same]
    change _ = Network.mk a n.feedKernels n.trainKernels d'
    rw [← show a' = a from harena]
    rfl
  · exact hprogram'.trans (ht.program.trans hprogram.symm)
  · exact (steady.called hd').trans (ht.accelerated.trans (steady.called hd).symm)
  · intro pass
    rw [hprogram]
    exact ht.serving pass

theorem Twin.trace (h : Obeys view) (steady : Steady p (Attachment δ)) (ht : Twin view n m)
    {steps : List (Step p)} (hf : FaultFreeSteps steps n) (hf' : FaultFreeSteps steps m) :
    RestoredNetworks.trace steps m = RestoredNetworks.trace steps n := by
  induction steps generalizing n m with
  | nil => rfl
  | cons s rest ih =>
    obtain ⟨hanswer, harena, hnext⟩ := ht.step h steady hf.1 hf'.1
    have hrest := ih hnext hf.2 hf'.2
    rw [RestoredNetworks.trace, RestoredNetworks.trace, hanswer, harena, hrest]

/-- A compiled network that can be reached and its restored copy, compiled on any other device of
the same kind, have the same kernels with the same handles. As long as no call fails, the same
passes and changes of the arena give back the same on both and leave the same arena, step by
step. -/
theorem restored_network_agrees {kind : Kind p δ} {view : View p δ} (h : Obeys view)
    (hk : OfKind kind view) (steady : Steady p δ) {origin : Origin p} {ops : List (Operation p δ)}
    (built : BuiltLast origin ops) (d : δ) :
    let n : Network p δ := run ops origin.network
    let copy := restored n (.attached d)
    (∀ pass, Serving (kind.effect (n.kernels.map Kernel.source)) n pass) →
    copy.compile.result = .ok () →
      (∃ e, copy.compile.network = onto n e) ∧
      ∀ steps, FaultFreeSteps steps n → FaultFreeSteps steps copy.compile.network →
        trace steps copy.compile.network = trace steps n := by
  intro n copy serving hr
  have hn : Compiled kind.attachment view.attachment n :=
    compiled_last h.attachment hk.attachment steady.attachment built
  have hm : Compiled kind.attachment view.attachment copy.compile.network :=
    compiled_compile h.attachment hk.attachment steady.attachment hr
  obtain ⟨e, he, hprogram⟩ := compile_restored h.attachment hk.attachment
    (inPass_run origin ops) hn.handles hr
  have twin : Twin view.attachment n copy.compile.network := by
    refine ⟨?_, ?_, hm.accelerated.trans hn.accelerated.symm, ?_⟩
    · rw [he]
      rfl
    · rw [he]
      exact hprogram.trans hn.program.symm
    · rw [hn.program]
      exact serving
  exact ⟨⟨e, he⟩, fun steps hf hf' => twin.trace h.attachment steady.attachment hf hf'⟩

end

def simulatedKind (p : Precision) : Kind p (Simulated p) where
  entryPoints d := d.names
  effect _ := simulatedEffect p

theorem ofKind_simulated (p : Precision) : OfKind (simulatedKind p) (simulatedView p) where
  build {sources d e} hd := by
    simp only [Device.order, Simulated.order] at hd
    have hbuild := of_call_eq_ok hd
    simp only [Simulated.build] at hbuild
    split at hbuild
    · cases hbuild
    · cases hbuild
      exact ⟨rfl, rfl⟩
  handleOf {name handle d e} hd := by
    simp only [Device.handleOf, Simulated.handleOf] at hd
    have hfound := of_call_eq_ok hd
    split at hfound
    · next place hplace =>
      cases hfound
      exact ⟨hplace, rfl⟩
    · cases hfound

/-- A forward pass, a training pass, a change of the first slot, and a forward pass again. -/
def someSteps : List (Step .single) :=
  [.feed [.ofNat 5], .train .zero [], .edit fun a => { a with memory := a.memory.set 0 (.ofNat 8) },
    .feed [.ofNat 5]]

/-- A device that has been used before and will fail later. -/
def usedDevice : Simulated .single :=
  { Simulated.start .single [⟨.finish, 20, .dispatch⟩] false [.upload, .finish] with
    names := ["train_0"], memory := [.nan], outputs := [.ofNat 1] }

theorem restored_slots_agrees :
    let copy := restored slotsNetwork (.attached usedDevice)
    Obeys (simulatedView .single) ∧ OfKind (simulatedKind .single) (simulatedView .single) ∧
      Steady .single (Simulated .single) ∧ BuiltLast slotsOrigin slotsOps ∧
      copy.compile.result = .ok () ∧ FaultFreeSteps someSteps slotsNetwork ∧
      FaultFreeSteps someSteps copy.compile.network ∧
      (trace someSteps copy.compile.network).map Prod.fst =
        [.ok [.ofNat 4], .ok [], .ok [], .ok [.ofNat 9]] := by
  intro copy
  have hobeys := obeys_simulated .single
  have hkind := ofKind_simulated .single
  have steady := steady_simulated .single
  have hbuilt : BuiltLast slotsOrigin slotsOps := by
    refine (kernels_history slotsOrigin slotsOps).resolve_left fun hnone => ?_
    have hall : AllBuilt slotsNetwork := by
      unfold AllBuilt
      decide +kernel
    exact not_allBuilt hnone (by decide +kernel) hall
  have hr : copy.compile.result = .ok () := by decide +kernel
  have hf : FaultFreeSteps someSteps slotsNetwork := by
    simp only [FaultFreeSteps, someSteps, FaultFree]
    decide +kernel
  have hf' : FaultFreeSteps someSteps copy.compile.network := by
    simp only [FaultFreeSteps, someSteps, FaultFree]
    decide +kernel
  obtain ⟨-, htrace⟩ := restored_network_agrees hobeys hkind steady hbuilt usedDevice
    (fun _ _ _ => trivial) hr
  have hsame : trace someSteps copy.compile.network = trace someSteps slotsNetwork :=
    htrace someSteps hf hf'
  refine ⟨hobeys, hkind, steady, hbuilt, hr, hf, hf', ?_⟩
  rw [hsame]
  decide +kernel

end NeuronKernels.RestoredNetworks
