import NeuronKernels.NetworkFiles
import NeuronKernels.SimulatedDevice
import NeuronKernels.Proofs.KernelGroups

/-!
# Runs of a network

A network comes from an arena, a graph or a stored record, and from then on any operation may follow
any other, with any devices and any failures. Operations that only look at a network change nothing
and are left out. What an operation asks of the device is one row of steps that ends at the first
failure (`andThen`); the equations for the rows stand here once, and everything about calls goes
through them. For every operation there is one statement of what it does to the kernels.
-/

namespace NeuronKernels.NetworkRuns
open BinaryFloat ComputeDevice FileTree KernelAssembly KernelGroups KernelNetwork KernelUnit
open MemoryArena NetworkErrors NetworkFiles NeuronGraph StoredNetwork

variable {p : Precision} {δ : Type}

/-- Goes on after a success; a failure is the end, with the state as `stop` makes it. -/
def andThen {ε α β σ τ : Type} (r : Except ε α × σ) (stop : σ → τ)
    (go : α → σ → Except ε β × τ) : Except ε β × τ :=
  match r with
  | (.error e, s) => (.error e, stop s)
  | (.ok a, s) => go a s

/-- What holds after the first step holds after both when it survives the second one. -/
theorem andThen_keeps {ε α β σ τ : Type} {P : σ → Prop} {Q : τ → Prop} {r : Except ε α × σ}
    {stop : σ → τ} {go : α → σ → Except ε β × τ} (hr : P r.2) (hs : ∀ s, P s → Q (stop s))
    (hg : ∀ a s, P s → Q (go a s).2) : Q (andThen r stop go).2 := by
  rcases r with ⟨e | a, s⟩
  · exact hs s hr
  · exact hg a s hr

/-- What every later step leaves alone is as the first step leaves it. -/
theorem andThen_carries {ε α β σ τ γ : Type} {f : σ → γ} {g : τ → γ} {r : Except ε α × σ}
    {stop : σ → τ} {go : α → σ → Except ε β × τ} (hs : ∀ s, g (stop s) = f s)
    (hg : ∀ a s, g (go a s).2 = f s) : g (andThen r stop go).2 = f r.2 := by
  rcases r with ⟨e | a, s⟩
  · exact hs s
  · exact hg a s

theorem of_andThen_eq {ε α β σ τ : Type} {r : Except ε α × σ} {stop : σ → τ}
    {go : α → σ → Except ε β × τ} {b : β} {t : τ} (h : andThen r stop go = (.ok b, t)) :
    ∃ a s, r = (.ok a, s) ∧ go a s = (.ok b, t) := by
  rcases r with ⟨e | a, s⟩
  · cases h
  · exact ⟨a, s, rfl, h⟩

/-- A row that fails has failed at the first step or behind it. -/
theorem of_andThen_eq_error {ε α β σ τ : Type} {r : Except ε α × σ} {stop : σ → τ}
    {go : α → σ → Except ε β × τ} {e : ε} {t : τ} (h : andThen r stop go = (.error e, t)) :
    (∃ s, r = (.error e, s) ∧ t = stop s) ∨ ∃ a s, r = (.ok a, s) ∧ go a s = (.error e, t) := by
  rcases r with ⟨e' | a, s⟩
  · cases h
    exact .inl ⟨s, rfl, rfl⟩
  · exact .inr ⟨a, s, rfl, h⟩

theorem of_andThen_eq_ok {ε α β σ τ : Type} {r : Except ε α × σ} {stop : σ → τ}
    {go : α → σ → Except ε β × τ} {b : β} (h : (andThen r stop go).1 = .ok b) :
    ∃ a s, r = (.ok a, s) ∧ (go a s).1 = .ok b := by
  rcases r with ⟨e | a, s⟩
  · cases h
  · exact ⟨a, s, rfl, h⟩

/-- Two rows whose steps match up to a change of states match as a whole. -/
theorem andThen_map {ε α β σ τ σ' τ' : Type} {f : σ → σ'} {g : τ → τ'} {r : Except ε α × σ}
    {r' : Except ε α × σ'} {stop : σ → τ} {stop' : σ' → τ'} {go : α → σ → Except ε β × τ}
    {go' : α → σ' → Except ε β × τ'} (hr : r' = Prod.map id f r)
    (hs : ∀ s, stop' (f s) = g (stop s)) (hg : ∀ a s, go' a (f s) = Prod.map id g (go a s)) :
    andThen r' stop' go' = Prod.map id g (andThen r stop go) := by
  subst hr
  rcases r with ⟨e | a, s⟩
  · simp [andThen, hs]
  · simp [andThen, hg]

section
variable [Device p δ]

theorem obey_cons (o : Order p) (rest : List (Order p)) (d : δ) :
    obey (o :: rest) d = andThen (Device.order o d) id fun _ => obey rest := by
  rcases h : Device.order o d with ⟨e | _, d'⟩ <;> simp [obey, andThen, h]

theorem handlesOf_cons (name : String) (rest : List String) (d : δ) :
    handlesOf p (name :: rest) d =
      andThen (Device.handleOf p name d) id fun handle d =>
        andThen (handlesOf p rest d) id fun handles d => (.ok (handle :: handles), d) := by
  rcases h : Device.handleOf p name d with ⟨e | handle, d'⟩
  · simp [handlesOf, andThen, h]
  · rcases h' : handlesOf p rest d' with ⟨e | handles, d''⟩ <;> simp [handlesOf, andThen, h, h']

theorem dispatch_cons {k : Kernel} {handle : Nat} (hk : k.handle = some handle)
    (rest : List Kernel) (d : Attachment δ) :
    Network.dispatch (p := p) (k :: rest) d =
      andThen (obey [(.enqueue handle : Order p), .finish] d) id fun _ =>
        Network.dispatch (p := p) rest := by
  rcases h : obey [(.enqueue handle : Order p), .finish] d with ⟨e | _, d'⟩ <;>
    simp [Network.dispatch, andThen, hk, h]

theorem runPass_eq (n : Network p δ) (arguments : Order p) (pass : Pass) :
    n.runPass arguments pass =
      andThen (obey [.upload n.arena.memory, arguments] n.device) id fun _ =>
        Network.dispatch (p := p) (n.kernelsOf pass) := by
  rcases h : obey [.upload n.arena.memory, arguments] n.device with ⟨e | _, d⟩ <;>
    simp [Network.runPass, andThen, h]

/-- The network on another state of its device. -/
def onto (n : Network p δ) (d : Attachment δ) : Network p δ := { n with device := d }

def cleared (n : Network p δ) : Network p δ :=
  { n with arena := n.arena.fillOutputs Value.zero }

theorem of_fetchOutputs_eq {n m : Network p δ} {result : Except NetworkError Unit}
    (h : n.fetchOutputs = (result, m)) :
    ∃ found d, Device.outputs n.arena.outputs n.device = ((result, found), d) ∧
      m = { n with device := d, arena := n.arena.overwriteOutputs found } := by
  rcases hr : Device.outputs n.arena.outputs n.device with ⟨⟨answer, found⟩, d⟩
  simp only [Network.fetchOutputs, hr, Prod.mk.injEq] at h
  obtain ⟨rfl, rfl⟩ := h
  exact ⟨found, d, rfl, rfl⟩

theorem of_fetchMemory_eq {n m : Network p δ} {result : Except NetworkError Unit}
    (h : n.fetchMemory = (result, m)) :
    ∃ found d, Device.memory n.arena.memory n.device = ((result, found), d) ∧
      m = { n with device := d, arena := n.arena.overwriteMemory found } := by
  rcases hr : Device.memory n.arena.memory n.device with ⟨⟨answer, found⟩, d⟩
  simp only [Network.fetchMemory, hr, Prod.mk.injEq] at h
  obtain ⟨rfl, rfl⟩ := h
  exact ⟨found, d, rfl, rfl⟩

theorem executeFeed_eq (n : Network p δ) (inputs : List (Value p)) :
    n.executeFeed inputs =
      andThen ((cleared n).runPass (.stageFeed inputs (cleared n).arena.outputs.length) .feed)
        (onto (cleared n)) fun _ d =>
          andThen (onto (cleared n) d).fetchOutputs id fun _ m =>
            andThen m.fetchMemory id fun _ m => (.ok m.arena.outputs, m) := by
  rcases h : (cleared n).runPass (.stageFeed inputs (cleared n).arena.outputs.length) .feed
    with ⟨e | _, d⟩
  · simp only [Network.executeFeed, andThen, onto, cleared] at h ⊢
    simp only [h]
  · rcases ho : (onto (cleared n) d).fetchOutputs with ⟨e | _, m⟩
    · simp only [Network.executeFeed, andThen, onto, cleared] at h ho ⊢
      simp only [h, ho, id_eq]
    · rcases hm : m.fetchMemory with ⟨e | _, m'⟩
      all_goals
        simp only [Network.executeFeed, andThen, onto, cleared] at h ho ⊢
        simp only [h, ho, hm, id_eq]

theorem executeTrain_eq (n : Network p δ) (rate : Value p) (targets : List (Value p)) :
    n.executeTrain rate targets =
      andThen (n.runPass (.stageTrain rate targets) .train) (onto n) fun _ d =>
        (onto n d).fetchMemory := by
  rcases h : n.runPass (.stageTrain rate targets) .train with ⟨e | _, d⟩ <;>
    simp [Network.executeTrain, andThen, onto, h]

section
variable {n : Network p δ}

theorem feed_idle (h : n.isExecutable .feed = false) (inputs : List (Value p)) :
    (n.feed inputs).result = .ok [] ∧ (n.feed inputs).network = n := by
  simp [Network.feed, h]

theorem feed_executed (h : n.isExecutable .feed = true) (inputs : List (Value p)) :
    (n.feed inputs).result = (n.executeFeed inputs).1 ∧
      (n.feed inputs).network = (n.executeFeed inputs).2 := by
  rcases hr : n.executeFeed inputs with ⟨e | outputs, m⟩ <;> simp [Network.feed, h, hr]

theorem train_idle (h : n.isExecutable .train = false) (rate : Value p)
    (targets : List (Value p)) :
    (n.train rate targets).result = .ok () ∧ (n.train rate targets).network = n := by
  simp [Network.train, h]

theorem train_executed (h : n.isExecutable .train = true) (rate : Value p)
    (targets : List (Value p)) :
    (n.train rate targets).result = (n.executeTrain rate targets).1 ∧
      (n.train rate targets).network = (n.executeTrain rate targets).2 := by
  rcases hr : n.executeTrain rate targets with ⟨e | _, m⟩ <;> simp [Network.train, h, hr]

end

/-- The steps of compiling, without reports. -/
def program (n : Network p δ) : Except NetworkError (List Nat) × Attachment δ :=
  andThen (Device.order (.build (n.kernels.map Kernel.source) : Order p) n.device) id fun _ d =>
    andThen (handlesOf p (n.kernels.map Kernel.entryPoint) d) id fun handles d =>
      andThen (Device.order (.upload n.arena.memory : Order p) d) id fun _ d => (.ok handles, d)

theorem buildProgram_eq (n : Network p δ) :
    ∃ events, n.buildProgram = ((program n).1, (program n).2, events) := by
  rcases h : Device.order (.build (n.kernels.map Kernel.source) : Order p) n.device with ⟨e | _, d⟩
  · exact ⟨_, by simp [Network.buildProgram, program, andThen, h]; rfl⟩
  · rcases hn : handlesOf p (n.kernels.map Kernel.entryPoint) d with ⟨e | handles, d'⟩
    · exact ⟨[], by simp [Network.buildProgram, program, andThen, h, hn]⟩
    · rcases hu : Device.order (.upload n.arena.memory : Order p) d' with ⟨e | _, d''⟩ <;>
        exact ⟨[], by simp [Network.buildProgram, program, andThen, h, hn, hu]⟩

theorem length_handlesOf {names : List String} {d : δ} {handles : List Nat}
    (h : (handlesOf p names d).1 = .ok handles) : handles.length = names.length := by
  induction names generalizing d handles with
  | nil =>
    cases h
    rfl
  | cons name names ih =>
    rw [handlesOf_cons] at h
    obtain ⟨handle, d', -, h⟩ := of_andThen_eq_ok h
    obtain ⟨rest, d'', hr, h⟩ := of_andThen_eq_ok h
    cases h
    simpa using ih (congrArg Prod.fst hr)

theorem length_of_program {n : Network p δ} {handles : List Nat} (h : (program n).1 = .ok handles) :
    handles.length = n.kernels.length := by
  obtain ⟨_, d, -, h⟩ := of_andThen_eq_ok h
  obtain ⟨rest, d', hr, h⟩ := of_andThen_eq_ok h
  obtain ⟨_, d'', -, h⟩ := of_andThen_eq_ok h
  cases h
  simpa using length_handlesOf (congrArg Prod.fst hr)

/-- A device that is not accelerated is left alone, and so are the handles dropped. -/
theorem compile_refused {n : Network p δ} (h : Device.accelerated p n.device = false) :
    n.compile.result =
        .error (.accelerationUnavailable (n.deviceName ++ " cannot build kernels")) ∧
      n.compile.network = n.unbind := by
  have hu : Device.accelerated p n.unbind.device = false := h
  simp only [Network.compile, hu]
  exact ⟨rfl, rfl⟩

theorem compile_accelerated {n : Network p δ} (h : Device.accelerated p n.device = true) :
    n.compile.result = (program n.unbind).1.map (fun _ => ()) ∧
      n.compile.network = onto (match (program n.unbind).1 with
        | .error _ => n.unbind
        | .ok handles => n.unbind.bind handles) (program n.unbind).2 := by
  have hu : Device.accelerated p n.unbind.device = true := h
  obtain ⟨events, he⟩ := buildProgram_eq n.unbind
  rcases hp : program n.unbind with ⟨e | handles, d⟩ <;>
    simp [Network.compile, hu, he, hp, onto, Except.map]

end

/-- The second device is the first one after some calls. -/
inductive Called (p : Precision) {δ : Type} [Device p δ] : δ → δ → Prop
  | refl (d : δ) : Called p d d
  | order {d e : δ} (h : Called p d e) (o : Order p) : Called p d (Device.order o e).2
  | handleOf {d e : δ} (h : Called p d e) (name : String) : Called p d (Device.handleOf p name e).2
  | outputs {d e : δ} (h : Called p d e) (values : List (Value p)) :
      Called p d (Device.outputs values e).2
  | memory {d e : δ} (h : Called p d e) (values : List (Value p)) :
      Called p d (Device.memory values e).2

section
variable [Device p δ]

theorem Called.trans {c d e : δ} (h : Called p c d) (h' : Called p d e) : Called p c e := by
  induction h' with
  | refl => exact h
  | order _ o ih => exact ih.order o
  | handleOf _ name ih => exact ih.handleOf name
  | outputs _ values ih => exact ih.outputs values
  | memory _ values ih => exact ih.memory values

theorem called_obey (os : List (Order p)) (d : δ) : Called p d (obey os d).2 := by
  induction os generalizing d with
  | nil => exact .refl d
  | cons o os ih =>
    rw [obey_cons]
    exact andThen_keeps ((Called.refl d).order o) (fun _ h => h) fun _ s h => h.trans (ih s)

theorem called_handlesOf (names : List String) (d : δ) : Called p d (handlesOf p names d).2 := by
  induction names generalizing d with
  | nil => exact .refl d
  | cons name names ih =>
    rw [handlesOf_cons]
    refine andThen_keeps ((Called.refl d).handleOf name) (fun _ h => h) fun _ s h => ?_
    exact andThen_keeps (h.trans (ih s)) (fun _ h => h) fun _ _ h => h

theorem called_dispatch (ks : List Kernel) (d : Attachment δ) :
    Called p d (Network.dispatch (p := p) ks d).2 := by
  induction ks generalizing d with
  | nil => exact .refl d
  | cons k ks ih =>
    cases hk : k.handle with
    | none => simpa [Network.dispatch, hk] using Called.refl d
    | some handle =>
      rw [dispatch_cons hk]
      exact andThen_keeps (called_obey _ d) (fun _ h => h) fun _ s h => h.trans (ih s)

theorem called_runPass (n : Network p δ) (arguments : Order p) (pass : Pass) :
    Called p n.device (n.runPass arguments pass).2 := by
  rw [runPass_eq]
  exact andThen_keeps (called_obey _ n.device) (fun _ h => h) fun _ s h =>
    h.trans (called_dispatch _ s)

theorem called_program (n : Network p δ) : Called p n.device (program n).2 := by
  refine andThen_keeps ((Called.refl n.device).order _) (fun _ h => h) fun _ s h => ?_
  refine andThen_keeps (h.trans (called_handlesOf _ s)) (fun _ h => h) fun _ s h => ?_
  exact andThen_keeps (h.order _) (fun _ h => h) fun _ _ h => h

end

/-- A device stays attached. -/
theorem Called.attached [Device p δ] {d : δ} {e : Attachment δ} (h : Called p (.attached d) e) :
    ∃ d', e = .attached d' := by
  induction h with
  | refl => exact ⟨d, rfl⟩
  | order _ o ih =>
    obtain ⟨d', rfl⟩ := ih
    exact ⟨(Device.order o d').2, rfl⟩
  | handleOf _ name ih =>
    obtain ⟨d', rfl⟩ := ih
    exact ⟨(Device.handleOf p name d').2, rfl⟩
  | outputs _ values ih =>
    obtain ⟨d', rfl⟩ := ih
    exact ⟨(Device.outputs values d').2, rfl⟩
  | memory _ values ih =>
    obtain ⟨d', rfl⟩ := ih
    exact ⟨(Device.memory values d').2, rfl⟩

/-- Calls never change whether a device is accelerated. -/
structure Steady (p : Precision) (δ : Type) [Device p δ] : Prop where
  order : ∀ (o : Order p) (d : δ),
    Device.accelerated p (Device.order o d).2 = Device.accelerated p d
  handleOf : ∀ (name : String) (d : δ),
    Device.accelerated p (Device.handleOf p name d).2 = Device.accelerated p d
  outputs : ∀ (values : List (Value p)) (d : δ),
    Device.accelerated p (Device.outputs values d).2 = Device.accelerated p d
  memory : ∀ (values : List (Value p)) (d : δ),
    Device.accelerated p (Device.memory values d).2 = Device.accelerated p d

/-- The simulated device is always accelerated. -/
theorem steady_simulated (p : Precision) : Steady p (SimulatedDevice.Simulated p) where
  order _ _ := rfl
  handleOf _ _ := rfl
  outputs _ _ := rfl
  memory _ _ := rfl

theorem Steady.attachment [Device p δ] (h : Steady p δ) : Steady p (Attachment δ) where
  order o
    | .portable => rfl
    | .attached d => h.order o d
  handleOf name
    | .portable => rfl
    | .attached d => h.handleOf name d
  outputs values
    | .portable => rfl
    | .attached d => h.outputs values d
  memory values
    | .portable => rfl
    | .attached d => h.memory values d

theorem Steady.called [Device p δ] (h : Steady p δ) {d e : δ} (hc : Called p d e) :
    Device.accelerated p e = Device.accelerated p d := by
  induction hc with
  | refl => rfl
  | order _ o ih => exact (h.order o _).trans ih
  | handleOf _ name ih => exact (h.handleOf name _).trans ih
  | outputs _ values ih => exact (h.outputs values _).trans ih
  | memory _ values ih => exact (h.memory values _).trans ih

/-- The second network is the first one with another arena, and with its device after some calls. -/
def Touched [Device p δ] (n after : Network p δ) : Prop :=
  ∃ a d, Called p n.device d ∧ after = { n with arena := a, device := d }

section
variable [Device p δ] {n m after : Network p δ}

theorem Touched.refl (n : Network p δ) : Touched n n := ⟨n.arena, n.device, .refl _, rfl⟩

theorem Touched.trans (h : Touched n m) (h' : Touched m after) : Touched n after := by
  obtain ⟨a, d, hd, rfl⟩ := h
  obtain ⟨b, e, he, rfl⟩ := h'
  exact ⟨b, e, hd.trans he, rfl⟩

theorem touched_fetchOutputs (n : Network p δ) : Touched n n.fetchOutputs.2 :=
  ⟨_, _, (Called.refl n.device).outputs n.arena.outputs, rfl⟩

theorem touched_fetchMemory (n : Network p δ) : Touched n n.fetchMemory.2 :=
  ⟨_, _, (Called.refl n.device).memory n.arena.memory, rfl⟩

theorem touched_executeFeed (n : Network p δ) (inputs : List (Value p)) :
    Touched n (n.executeFeed inputs).2 := by
  have onto_touched : ∀ d, Called p (cleared n).device d → Touched n (onto (cleared n) d) :=
    fun d h => ⟨_, d, h, rfl⟩
  rw [executeFeed_eq]
  refine andThen_keeps (called_runPass _ _ _) onto_touched fun _ d h => ?_
  refine andThen_keeps ((onto_touched d h).trans (touched_fetchOutputs _)) (fun _ h => h)
    fun _ m h => ?_
  exact andThen_keeps (h.trans (touched_fetchMemory m)) (fun _ h => h) fun _ _ h => h

theorem touched_executeTrain (n : Network p δ) (rate : Value p) (targets : List (Value p)) :
    Touched n (n.executeTrain rate targets).2 := by
  have onto_touched : ∀ d, Called p n.device d → Touched n (onto n d) :=
    fun d h => ⟨_, d, h, rfl⟩
  rw [executeTrain_eq]
  exact andThen_keeps (called_runPass _ _ _) onto_touched fun _ d h =>
    (onto_touched d h).trans (touched_fetchMemory _)

theorem touched_feed (n : Network p δ) (inputs : List (Value p)) :
    Touched n (n.feed inputs).network := by
  cases he : n.isExecutable .feed with
  | false =>
    rw [(feed_idle he inputs).2]
    exact .refl n
  | true =>
    rw [(feed_executed he inputs).2]
    exact touched_executeFeed n inputs

theorem touched_train (n : Network p δ) (rate : Value p) (targets : List (Value p)) :
    Touched n (n.train rate targets).network := by
  cases he : n.isExecutable .train with
  | false =>
    rw [(train_idle he rate targets).2]
    exact .refl n
  | true =>
    rw [(train_executed he rate targets).2]
    exact touched_executeTrain n rate targets

end

/-- Every kernel has a handle. -/
def AllBuilt (n : Network p δ) : Prop := ∀ k ∈ n.kernels, k.isBuilt = true

/-- No kernel has a handle. -/
def NoneBuilt (n : Network p δ) : Prop := ∀ k ∈ n.kernels, k.isBuilt = false

theorem noneBuilt_unbind (n : Network p δ) : NoneBuilt n.unbind := by
  intro k hk
  rw [Network.unbind, Network.kernels_mapKernels, List.mem_map] at hk
  obtain ⟨k', -, rfl⟩ := hk
  exact k'.isBuilt_unbind

theorem noneBuilt_loadRecord (n : Network p δ) (r : NetworkRecord) :
    NoneBuilt (n.loadRecord r) := by
  intro k hk
  simp only [Network.kernels, Network.loadRecord, List.mem_append, List.mem_map] at hk
  obtain ⟨k', -, rfl⟩ | ⟨k', -, rfl⟩ := hk <;> rfl

theorem noneBuilt_ofGraph (a : Arena p) (g : Graph) (budget : Nat) :
    NoneBuilt (Network.ofGraph a g budget : Network p δ) := by
  intro k hk
  simp only [Network.kernels, Network.ofGraph, feedKernels_eq_mapIdx, trainKernels_eq_mapIdx,
    List.mem_append, List.mem_mapIdx] at hk
  obtain ⟨i, hi, rfl⟩ | ⟨i, hi, rfl⟩ := hk <;> rfl

theorem sources_unbind (n : Network p δ) :
    n.unbind.kernels.map Kernel.source = n.kernels.map Kernel.source := by
  rw [Network.unbind, Network.kernels_mapKernels, List.map_map]
  exact List.map_congr_left fun k _ => k.source_unbind

theorem zipWith_append_left {α β γ : Type} (f : α → β → γ) (xs ys : List α) (zs : List β) :
    (xs ++ ys).zipWith f zs = xs.zipWith f zs ++ ys.zipWith f (zs.drop xs.length) := by
  induction xs generalizing zs with
  | nil => rfl
  | cons x xs ih => cases zs <;> simp [ih]

theorem kernels_bind (n : Network p δ) (handles : List Nat) :
    (n.bind handles).kernels = n.kernels.zipWith Kernel.bind handles :=
  (zipWith_append_left Kernel.bind n.feedKernels n.trainKernels handles).symm

section
variable {n : Network p δ} {handles : List Nat}

theorem handles_bind (h : handles.length = n.kernels.length) :
    (n.bind handles).kernels.map Kernel.handle = handles.map some := by
  rw [kernels_bind]
  apply List.ext_getElem
  · simp [h]
  · simp [Kernel.bind]

theorem sources_bind (h : handles.length = n.kernels.length) :
    (n.bind handles).kernels.map Kernel.source = n.kernels.map Kernel.source := by
  rw [kernels_bind]
  apply List.ext_getElem
  · simp [h]
  · simp [Kernel.source_bind]

theorem handles_of_built {ks : List Kernel} (h : ∀ k ∈ ks, k.isBuilt = true) :
    ks.map Kernel.handle = (ks.filterMap Kernel.handle).map some := by
  induction ks with
  | nil => rfl
  | cons k ks ih =>
    obtain ⟨handle, hk⟩ := Option.isSome_iff_exists.mp (h k (by simp))
    simpa [hk] using ih fun k hk => h k (by simp [hk])

theorem handles_feed (h : n.kernels.map Kernel.handle = handles.map some) :
    n.feedKernels.map Kernel.handle = (handles.take n.feedKernels.length).map some := by
  rw [List.map_take, ← h]
  simp [Network.kernels]

theorem handles_train (h : n.kernels.map Kernel.handle = handles.map some) :
    n.trainKernels.map Kernel.handle = (handles.drop n.feedKernels.length).map some := by
  rw [List.map_drop, ← h]
  simp [Network.kernels]

theorem allBuilt_of_handles (h : n.kernels.map Kernel.handle = handles.map some) : AllBuilt n := by
  intro k hk
  have hm : k.handle ∈ handles.map some := h ▸ List.mem_map_of_mem hk
  obtain ⟨handle, -, hh⟩ := List.mem_map.mp hm
  simp [Kernel.isBuilt, ← hh]

end

theorem isBuilt_iff {n : Network p δ} (hf : n.feedKernels ≠ []) (ht : n.trainKernels ≠ []) :
    n.isBuilt = true ↔ AllBuilt n := by
  simp [Network.isBuilt, AllBuilt, hf, ht]

theorem isExecutable_iff [Device p δ] (n : Network p δ) (pass : Pass) :
    n.isExecutable pass = true ↔ Device.accelerated p n.device = true ∧
      n.kernelsOf pass ≠ [] ∧ ∀ k ∈ n.kernelsOf pass, k.isBuilt = true := by
  simp [Network.isExecutable, and_assoc]

theorem mem_kernels {n : Network p δ} {pass : Pass} {k : Kernel} (h : k ∈ n.kernelsOf pass) :
    k ∈ n.kernels := by
  cases pass with
  | feed => exact List.mem_append_left _ h
  | train => exact List.mem_append_right _ h

theorem not_allBuilt {n : Network p δ} (h : NoneBuilt n) (hne : n.kernels ≠ []) :
    ¬ AllBuilt n := by
  intro hall
  obtain ⟨k, hk⟩ := List.exists_mem_of_ne_nil _ hne
  have hf := h k hk
  rw [hall k hk] at hf
  cases hf

theorem isExecutable_of_allBuilt [Device p δ] {n : Network p δ} (h : AllBuilt n)
    (ha : Device.accelerated p n.device = true) (pass : Pass) (hne : n.kernelsOf pass ≠ []) :
    n.isExecutable pass = true :=
  (isExecutable_iff n pass).mpr ⟨ha, hne, fun k hk => h k (mem_kernels hk)⟩

theorem isExecutable_of_noneBuilt [Device p δ] {n : Network p δ} (h : NoneBuilt n) (pass : Pass) :
    n.isExecutable pass = false := by
  cases he : n.isExecutable pass with
  | false => rfl
  | true =>
    obtain ⟨-, hne, hb⟩ := (isExecutable_iff n pass).mp he
    obtain ⟨k, hk⟩ := List.exists_mem_of_ne_nil _ hne
    have hf := h k (mem_kernels hk)
    rw [hb k hk] at hf
    cases hf

/-- Both passes lack kernels together with the graph. -/
theorem kernels_ofGraph_ne_nil {a : Arena p} {g : Graph} (h : g.neuronCount ≠ 0) (budget : Nat) :
    (Network.ofGraph a g budget : Network p δ).feedKernels ≠ [] ∧
      (Network.ofGraph a g budget : Network p δ).trainKernels ≠ [] :=
  ⟨fun hf => h ((feedKernels_eq_nil_iff g a budget).mp hf),
    fun ht => h ((trainKernels_eq_nil_iff g a budget).mp ht)⟩

/-- Compiling drops all handles first; it gives new ones only when it succeeds. -/
theorem compile_cases [Device p δ] (n : Network p δ) :
    (∃ e d, Called p n.device d ∧ n.compile.result = .error e ∧
        n.compile.network = onto n.unbind d) ∨
      ∃ handles d, Called p n.device d ∧ n.compile.result = .ok () ∧
        Device.accelerated p n.device = true ∧ handles.length = n.unbind.kernels.length ∧
        n.compile.network = onto (n.unbind.bind handles) d := by
  cases ha : Device.accelerated p n.device with
  | false =>
    obtain ⟨he, hn⟩ := compile_refused ha
    exact .inl ⟨_, n.device, .refl _, he, hn⟩
  | true =>
    obtain ⟨hr, hn⟩ := compile_accelerated ha
    have hc := called_program n.unbind
    rcases hp : (program n.unbind).1 with e | handles
    · exact .inl ⟨e, _, hc, by rw [hr, hp]; rfl, by rw [hn, hp]⟩
    · exact .inr ⟨handles, _, hc, by rw [hr, hp]; rfl, rfl, length_of_program hp, by rw [hn, hp]⟩

theorem noneBuilt_touched [Device p δ] {n after : Network p δ} (h : NoneBuilt n)
    (ht : Touched n after) : NoneBuilt after := by
  obtain ⟨a, d, -, rfl⟩ := ht
  exact h

theorem noneBuilt_of_compile_error [Device p δ] {n : Network p δ} {e : NetworkError}
    (h : n.compile.result = .error e) : NoneBuilt n.compile.network := by
  obtain ⟨-, d, -, -, hn⟩ | ⟨-, -, -, hok, -⟩ := compile_cases n
  · rw [hn]
    exact noneBuilt_unbind n
  · rw [hok] at h
    cases h

theorem sources_compile [Device p δ] (n : Network p δ) :
    n.compile.network.kernels.map Kernel.source = n.kernels.map Kernel.source := by
  obtain ⟨-, d, -, -, hn⟩ | ⟨handles, d, -, -, -, hl, hn⟩ := compile_cases n
  · rw [hn]
    exact sources_unbind n
  · rw [hn]
    exact (sources_bind hl).trans (sources_unbind n)

inductive Origin (p : Precision)
  | arena (a : Arena p)
  | graph (a : Arena p) (g : Graph) (budget : Nat)
  | record (a : Arena p) (r : NetworkRecord)

def Origin.network : Origin p → Network p δ
  | .arena a => .ofArena a
  | .graph a g budget => .ofGraph a g budget
  | .record a r => .ofRecord a r

theorem noneBuilt_network (origin : Origin p) : NoneBuilt (origin.network : Network p δ) := by
  cases origin with
  | arena a =>
    intro k hk
    cases hk
  | graph a g budget => exact noneBuilt_ofGraph a g budget
  | record a r => exact noneBuilt_loadRecord _ r

/-- What can be done to a network. -/
inductive Operation (p : Precision) (δ : Type)
  | attach (device : Attachment δ)
  | compile
  | feed (inputs : List (Value p))
  | train (rate : Value p) (targets : List (Value p))
  | loadRecord (r : NetworkRecord)
  | loadText (text : String)
  | loadFile (tree : Tree) (path : String)
  | edit (change : Arena p → Arena p)

namespace Operation

def after [Device p δ] (op : Operation p δ) (n : Network p δ) : Network p δ :=
  match op with
  | .attach device => n.withDevice device
  | .compile => n.compile.network
  | .feed inputs => (n.feed inputs).network
  | .train rate targets => (n.train rate targets).network
  | .loadRecord r => n.loadRecord r
  | .loadText text => (n.loadText text).network
  | .loadFile tree path => (loadNetwork tree path n).network
  | .edit change => { n with arena := change n.arena }

/-- The stored kernels that an operation puts in place of the kernels, if it does. -/
def record : Operation p δ → Option NetworkRecord
  | .loadRecord r => some r
  | .loadText text => (NetworkRecord.ofText text).toOption
  | .loadFile tree path => ((readText tree path).toOption).bind fun text =>
      (NetworkRecord.ofText text).toOption
  | _ => none

/-- The operation neither brings another device or other kernels nor compiles. -/
def Quiet : Operation p δ → Prop
  | .attach _ => False
  | .compile => False
  | op => op.record = none

/-- The operation does not use the device. -/
def Silent : Operation p δ → Prop
  | .attach _ => False
  | .compile => False
  | .feed _ => False
  | .train _ _ => False
  | _ => True

/-- Every operation attaches a device, compiles, loads, or is quiet. -/
theorem cases_after (op : Operation p δ) :
    (∃ device, op = .attach device) ∨ op = .compile ∨ (∃ r, op.record = some r) ∨ op.Quiet := by
  cases hr : op.record with
  | some r => exact .inr (.inr (.inl ⟨r, rfl⟩))
  | none =>
    cases op with
    | attach device => exact .inl ⟨device, rfl⟩
    | compile => exact .inr (.inl rfl)
    | _ => exact .inr (.inr (.inr hr))

theorem record_loadText (text : String) (n : Network p δ) :
    (n.loadText text).result = .ok () ↔ ∃ r, (loadText text : Operation p δ).record = some r := by
  cases h : NetworkRecord.ofText text <;> simp [Network.loadText, record, Except.toOption, h]

theorem record_loadFile (tree : Tree) (path : String) (n : Network p δ) :
    (loadNetwork tree path n).result = .ok () ↔
      ∃ r, (loadFile tree path : Operation p δ).record = some r := by
  cases ht : readText tree path with
  | error cause => simp [loadNetwork, record, Except.toOption, ht]
  | ok text =>
    rw [loadNetwork, ht]
    simpa [record, Except.toOption, ht] using record_loadText (δ := δ) text n

section
variable [Device p δ]

theorem after_of_record {op : Operation p δ} {r : NetworkRecord} (h : op.record = some r)
    (n : Network p δ) : op.after n = n.loadRecord r := by
  have text_after : ∀ text, (NetworkRecord.ofText text).toOption = some r →
      (n.loadText text).network = n.loadRecord r := by
    intro text ht
    cases hr : NetworkRecord.ofText text with
    | error e => simp [hr, Except.toOption] at ht
    | ok r' =>
      obtain rfl : r' = r := by simpa [hr, Except.toOption] using ht
      simp [Network.loadText, hr]
  cases op with
  | loadRecord r' =>
    obtain rfl : r' = r := by simpa [record] using h
    rfl
  | loadText text => exact text_after text h
  | loadFile tree path =>
    cases ht : readText tree path with
    | error cause => simp [record, Except.toOption, ht] at h
    | ok text =>
      have hr : (NetworkRecord.ofText text).toOption = some r := by
        simpa [record, Except.toOption, ht] using h
      simpa [after, loadNetwork, ht] using text_after text hr
  | _ => simp [record] at h

theorem device_after {op : Operation p δ} (h : op.Silent) (n : Network p δ) :
    (op.after n).device = n.device := by
  have text_after : ∀ text, (n.loadText text).network.device = n.device := by
    intro text
    cases hr : NetworkRecord.ofText text <;> simp [Network.loadText, Network.loadRecord, hr]
  cases op with
  | loadRecord r => rfl
  | loadText text => exact text_after text
  | loadFile tree path =>
    cases ht : readText tree path with
    | error cause => simp [after, loadNetwork, ht]
    | ok text => simpa [after, loadNetwork, ht] using text_after text
  | edit change => rfl
  | _ => exact h.elim

/-- An operation that is quiet leaves the kernels alone, with their handles. -/
theorem Quiet.touched {op : Operation p δ} (h : op.Quiet) (n : Network p δ) :
    Touched n (op.after n) := by
  have text_after : ∀ text, (NetworkRecord.ofText text).toOption = none →
      (n.loadText text).network = n := by
    intro text ht
    cases hr : NetworkRecord.ofText text with
    | error e => simp [Network.loadText, hr]
    | ok r => simp [hr, Except.toOption] at ht
  cases op with
  | attach device => exact h.elim
  | compile => exact h.elim
  | feed inputs => exact touched_feed n inputs
  | train rate targets => exact touched_train n rate targets
  | loadRecord r => cases h
  | loadText text =>
    have hn : after (loadText text) n = n := text_after text h
    rw [hn]
    exact .refl n
  | loadFile tree path =>
    have hn : after (loadFile tree path) n = n := by
      cases ht : readText tree path with
      | error cause => simp [after, loadNetwork, ht]
      | ok text =>
        have hr : (NetworkRecord.ofText text).toOption = none := by
          simpa [Quiet, record, Except.toOption, ht] using h
        simpa [after, loadNetwork, ht] using text_after text hr
    rw [hn]
    exact .refl n
  | edit change => exact ⟨_, n.device, .refl _, rfl⟩

theorem called_after {op : Operation p δ} (h : ∀ device, op ≠ .attach device)
    (n : Network p δ) : Called p n.device (op.after n).device := by
  rcases op.cases_after with ⟨device, rfl⟩ | rfl | ⟨r, hr⟩ | hq
  · exact absurd rfl (h device)
  · rw [after]
    obtain ⟨_, d, hd, -, hn⟩ | ⟨_, d, hd, -, -, -, hn⟩ := compile_cases n <;>
      (rw [hn]; exact hd)
  · rw [after_of_record hr]
    exact .refl n.device
  · obtain ⟨a, d, hd, hn⟩ := hq.touched n
    rw [hn]
    exact hd

end

end Operation

section
variable [Device p δ]

/-- The network after operations in a row. -/
def run (ops : List (Operation p δ)) (n : Network p δ) : Network p δ :=
  ops.foldl (fun n op => op.after n) n

theorem run_concat (ops : List (Operation p δ)) (op : Operation p δ) (n : Network p δ) :
    run (ops ++ [op]) n = op.after (run ops n) := by
  simp [run]

end

end NeuronKernels.NetworkRuns
