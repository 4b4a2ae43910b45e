import NeuronKernels.Proofs.RecordedCalls

/-!
# Blocks of calls

The calls of an operation are known beforehand up to the first failure: they follow a block, which
is written down here for each operation that uses the device. `Grows` is the same statement about
the log of a recorder, and it goes through a row of steps (`grows_andThen`).
-/

namespace NeuronKernels.CallBlocks
open BinaryFloat ComputeDevice KernelNetwork KernelUnit MemoryArena NetworkErrors NetworkRuns
open NetworkRuns.Operation RecordedCalls

variable {p : Precision} {δ : Type}

/-- The calls of a row of steps: all of them after a success, and after a failure those up to the
one that failed. -/
def Follows {α : Type} (block calls : List (Exchange p)) : Except NetworkError α → Prop
  | .ok _ => calls = block
  | .error e => ∃ done x rest, block = done ++ x :: rest ∧ calls = done ++ [⟨x.call, .error e⟩]

theorem follows_ne_nil {α : Type} {block calls : List (Exchange p)} {r : Except NetworkError α}
    (h : Follows block calls r) (hb : block ≠ []) : calls ≠ [] := by
  cases r with
  | error e =>
    obtain ⟨done, x, rest, -, rfl⟩ := h
    simp
  | ok a => exact h ▸ hb

theorem follows_one {α : Type} {call : Call p} {expected : Option Nat}
    {answer : Except NetworkError α} (f : α → Option Nat)
    (h : ∀ a, answer = .ok a → f a = expected) :
    Follows [⟨call, .ok expected⟩] [⟨call, answer.map f⟩] answer := by
  cases answer with
  | error e => exact ⟨[], _, [], rfl, rfl⟩
  | ok a =>
    rw [← h a rfl]
    rfl

/-- A row of steps adds the calls of a block to the log. -/
def Grows {α σ : Type} (view : σ → Option (List (Exchange p))) (log block : List (Exchange p))
    (r : Except NetworkError α × σ) : Prop :=
  ∃ calls, Follows block calls r.1 ∧ view r.2 = some (log ++ calls)

theorem grows_andThen {α β σ τ : Type} {view : σ → Option (List (Exchange p))}
    {view' : τ → Option (List (Exchange p))} {log first second : List (Exchange p)}
    {r : Except NetworkError α × σ} {stop : σ → τ} {go : α → σ → Except NetworkError β × τ}
    (hr : Grows view log first r) (hs : ∀ s, view' (stop s) = view s)
    (hg : ∀ a s, r = (.ok a, s) → view s = some (log ++ first) →
      Grows view' (log ++ first) second (go a s)) :
    Grows view' log (first ++ second) (andThen r stop go) := by
  obtain ⟨calls, hc, hv⟩ := hr
  rcases r with ⟨e | a, s⟩
  · obtain ⟨done, x, rest, hb, rfl⟩ := hc
    exact ⟨_, ⟨done, x, rest ++ second, by simp [hb], rfl⟩, (hs s).trans hv⟩
  · obtain rfl : calls = first := hc
    obtain ⟨calls', hc', hv'⟩ := hg a s rfl hv
    refine ⟨calls ++ calls', ?_, by simpa [andThen] using hv'⟩
    rcases hgo : go a s with ⟨e | b, t⟩
    · rw [hgo] at hc'
      obtain ⟨done, x, rest, hb, hd⟩ := hc'
      simp only [andThen, hgo]
      exact ⟨calls ++ done, x, rest, by simp [hb], by simp [hd]⟩
    · rw [hgo] at hc'
      simp only [andThen, hgo]
      exact congrArg (calls ++ ·) hc'

/-- A last step that only changes the answer makes no calls. -/
theorem grows_answer {α β σ : Type} {view : σ → Option (List (Exchange p))}
    {log block : List (Exchange p)} {r : Except NetworkError α × σ} (h : Grows view log block r)
    (answer : α → σ → β) :
    Grows view log block (andThen r id fun a s => (.ok (answer a s), s)) := by
  rw [← List.append_nil block]
  exact grows_andThen h (fun _ => rfl) fun _ _ _ hs => ⟨[], rfl, by simpa using hs⟩

/-- The calls of orders that all succeed. -/
def ordered (os : List (Order p)) : List (Exchange p) := os.map fun o => ⟨.order o, .ok none⟩

/-- The calls that look the handles of entry points up. -/
def lookups (names : List String) (handles : List Nat) : List (Exchange p) :=
  List.zipWith (fun name handle => ⟨.handleOf name, .ok (some handle)⟩) names handles

/-- The calls that run kernels one at a time. -/
def dispatches (handles : List Nat) : List (Exchange p) :=
  handles.flatMap fun handle => ordered [.enqueue handle, .finish]

theorem attached_of_log {log : List (Exchange p)} {d : Attachment (Recorder p δ)}
    (h : logOf d = some log) : ∃ r, d = .attached r ∧ r.log = log := by
  cases d with
  | portable => cases h
  | attached r => exact ⟨r, rfl, by simpa [logOf] using h⟩

section
variable [Device p δ] {log : List (Exchange p)} {d : Attachment (Recorder p δ)}

theorem grows_order (h : logOf d = some log) (o : Order p) :
    Grows logOf log (ordered [o]) (Device.order o d) := by
  obtain ⟨r, rfl, rfl⟩ := attached_of_log h
  exact ⟨_, follows_one (fun _ => none) fun _ _ => rfl, rfl⟩

theorem grows_obey (h : logOf d = some log) (os : List (Order p)) :
    Grows logOf log (ordered os) (obey os d) := by
  induction os generalizing d log with
  | nil => exact ⟨[], rfl, by simpa [obey] using h⟩
  | cons o os ih =>
    rw [obey_cons]
    exact grows_andThen (grows_order h o) (fun _ => rfl) fun _ _ _ hs => ih hs

theorem grows_handleOf (name : String) (d : Attachment (Recorder p δ)) :
    ∃ handle, (∀ found, (Device.handleOf p name d).1 = .ok found → found = handle) ∧
      ∀ log, logOf d = some log →
        Grows logOf log (lookups [name] [handle]) (Device.handleOf p name d) := by
  cases d with
  | portable =>
    refine ⟨0, fun _ hf => ?_, fun _ h => ?_⟩
    · cases hf
    · cases h
  | attached r =>
    have hfound : ∀ found, (Device.handleOf p name r.device).1 = .ok found →
        found = (Device.handleOf p name r.device).1.toOption.getD 0 := by
      intro found hf
      simp [hf, Except.toOption]
    refine ⟨_, hfound, fun log h => ?_⟩
    obtain rfl : r.log = log := by simpa [logOf] using h
    exact ⟨_, follows_one some fun a ha => congrArg some (hfound a ha), rfl⟩

/-- The handles of the block are the ones that are found. After a failure the others are never asked
for, and any will do. -/
theorem grows_handlesOf (names : List String) (d : Attachment (Recorder p δ)) :
    ∃ handles, handles.length = names.length ∧
      (∀ found, (handlesOf p names d).1 = .ok found → found = handles) ∧
      ∀ log, logOf d = some log →
        Grows logOf log (lookups names handles) (handlesOf p names d) := by
  induction names generalizing d with
  | nil =>
    refine ⟨[], rfl, fun found hf => ?_, fun log h => ⟨[], rfl, by simpa [handlesOf] using h⟩⟩
    cases hf
    rfl
  | cons name names ih =>
    obtain ⟨handle, hfirst, hg⟩ := grows_handleOf (p := p) name d
    obtain ⟨handles, hl, hrest, hgs⟩ := ih (Device.handleOf p name d).2
    rw [handlesOf_cons]
    refine ⟨handle :: handles, by simp [hl], fun found hf => ?_, fun log h => ?_⟩
    · obtain ⟨a, s, hr, hf⟩ := of_andThen_eq_ok hf
      obtain ⟨rest, s', hr', hf⟩ := of_andThen_eq_ok hf
      rw [hr] at hfirst hrest
      obtain rfl : a = handle := hfirst a rfl
      obtain rfl : rest = handles := hrest rest (congrArg Prod.fst hr')
      cases hf
      rfl
    · have hsplit : (lookups (name :: names) (handle :: handles) : List (Exchange p)) =
          lookups [name] [handle] ++ lookups names handles := rfl
      rw [hsplit]
      refine grows_andThen (hg log h) (fun _ => rfl) fun a s hr hs => ?_
      rw [hr] at hgs
      exact grows_answer (hgs _ hs) _

theorem grows_dispatch (h : logOf d = some log) {ks : List Kernel} {handles : List Nat}
    (hk : ks.map Kernel.handle = handles.map some) :
    Grows logOf log (dispatches handles) (Network.dispatch (p := p) ks d) := by
  induction ks generalizing d log handles with
  | nil =>
    obtain rfl : handles = [] := by simpa using hk.symm
    exact ⟨[], rfl, by simpa [Network.dispatch] using h⟩
  | cons k ks ih =>
    cases handles with
    | nil => simp at hk
    | cons handle handles =>
      simp only [List.map_cons, List.cons.injEq] at hk
      rw [dispatch_cons hk.1]
      exact grows_andThen (grows_obey h _) (fun _ => rfl) fun _ _ _ hs => ih hs hk.2

variable {n : Network p (Recorder p δ)}

theorem grows_fetchOutputs (h : networkLog n = some log) :
    Grows networkLog log [⟨.outputs n.arena.outputs.length, .ok none⟩] n.fetchOutputs := by
  rcases n with ⟨a, feed, train, d⟩
  obtain ⟨r, rfl, rfl⟩ := attached_of_log h
  exact ⟨_, follows_one (fun _ => none) fun _ _ => rfl, rfl⟩

theorem grows_fetchMemory (h : networkLog n = some log) :
    Grows networkLog log [⟨.memory n.arena.memory.length, .ok none⟩] n.fetchMemory := by
  rcases n with ⟨a, feed, train, d⟩
  obtain ⟨r, rfl, rfl⟩ := attached_of_log h
  exact ⟨_, follows_one (fun _ => none) fun _ _ => rfl, rfl⟩

theorem grows_runPass (h : networkLog n = some log) (arguments : Order p) (pass : Pass)
    {handles : List Nat} (hk : (n.kernelsOf pass).map Kernel.handle = handles.map some) :
    Grows logOf log (ordered [.upload n.arena.memory, arguments] ++ dispatches handles)
      (n.runPass arguments pass) := by
  rw [runPass_eq]
  exact grows_andThen (grows_obey h _) (fun _ => rfl) fun _ _ _ hs => grows_dispatch hs hk

end

/-- The calls of compiling, for the handles that are found. -/
def compileBlock (n : Network p δ) (handles : List Nat) : List (Exchange p) :=
  ordered [.build (n.kernels.map Kernel.source)]
    ++ (lookups (n.kernels.map Kernel.entryPoint) handles ++ ordered [.upload n.arena.memory])

theorem compileBlock_unbind (n : Network p δ) (handles : List Nat) :
    compileBlock n.unbind handles = compileBlock n handles := by
  have hk : n.unbind.kernels.map Kernel.entryPoint = n.kernels.map Kernel.entryPoint := by
    rw [Network.unbind, Network.kernels_mapKernels, List.map_map]
    rfl
  rw [compileBlock, compileBlock, sources_unbind, hk]
  rfl

def feedBlock (n : Network p δ) (inputs : List (Value p)) (handles : List Nat) :
    List (Exchange p) :=
  ordered [.upload n.arena.memory, .stageFeed inputs n.arena.outputs.length]
    ++ dispatches handles
    ++ [⟨.outputs n.arena.outputs.length, .ok none⟩, ⟨.memory n.arena.memory.length, .ok none⟩]

def trainBlock (n : Network p δ) (rate : Value p) (targets : List (Value p))
    (handles : List Nat) : List (Exchange p) :=
  ordered [.upload n.arena.memory, .stageTrain rate targets]
    ++ dispatches handles
    ++ [⟨.memory n.arena.memory.length, .ok none⟩]

/-- The handles of the kernels that are started, in their order. -/
def enqueued (calls : List (Exchange p)) : List Nat :=
  calls.filterMap fun x =>
    match x.call with
    | .order (.enqueue handle) => some handle
    | _ => none

theorem enqueued_append (first second : List (Exchange p)) :
    enqueued (first ++ second) = enqueued first ++ enqueued second :=
  List.filterMap_append

theorem enqueued_dispatches (handles : List Nat) :
    enqueued (dispatches handles : List (Exchange p)) = handles := by
  induction handles with
  | nil => rfl
  | cons handle handles ih =>
    have hd : (dispatches (handle :: handles) : List (Exchange p)) =
        ordered [.enqueue handle, .finish] ++ dispatches handles := rfl
    rw [hd, enqueued_append, ih]
    rfl

theorem enqueued_feedBlock (n : Network p δ) (inputs : List (Value p)) (handles : List Nat) :
    enqueued (feedBlock n inputs handles) = handles := by
  rw [feedBlock, enqueued_append, enqueued_append, enqueued_dispatches]
  simp [enqueued, ordered]

theorem enqueued_trainBlock (n : Network p δ) (rate : Value p) (targets : List (Value p))
    (handles : List Nat) : enqueued (trainBlock n rate targets handles) = handles := by
  rw [trainBlock, enqueued_append, enqueued_append, enqueued_dispatches]
  simp [enqueued, ordered]

section
variable [Device p δ] {n : Network p (Recorder p δ)} {log : List (Exchange p)}
  {handles : List Nat}

theorem grows_program (h : networkLog n = some log) :
    ∃ handles, handles.length = n.kernels.length ∧
      (∀ found, (program n).1 = .ok found → found = handles) ∧
      Grows logOf log (compileBlock n handles) (program n) := by
  obtain ⟨handles, hl, hfound, hgs⟩ := grows_handlesOf (p := p) (n.kernels.map Kernel.entryPoint)
    (Device.order (.build (n.kernels.map Kernel.source) : Order p) n.device).2
  refine ⟨handles, by simpa using hl, fun found hf => ?_, ?_⟩
  · obtain ⟨_, d, hr, hf⟩ := of_andThen_eq_ok hf
    obtain ⟨rest, d', hr', hf⟩ := of_andThen_eq_ok hf
    obtain ⟨_, d'', -, hf⟩ := of_andThen_eq_ok hf
    rw [hr] at hfound
    cases hf
    exact hfound _ (congrArg Prod.fst hr')
  · refine grows_andThen (grows_order h _) (fun _ => rfl) fun _ d hr hd => ?_
    rw [hr] at hgs
    refine grows_andThen (hgs _ hd) (fun _ => rfl) fun found d' _ hd' => ?_
    exact grows_answer (grows_order hd' _) _

theorem grows_executeFeed (h : networkLog n = some log) (inputs : List (Value p))
    (hk : n.feedKernels.map Kernel.handle = handles.map some) :
    Grows networkLog log (feedBlock n inputs handles) (n.executeFeed inputs) := by
  have hl : (cleared n).arena.outputs.length = n.arena.outputs.length := by
    simp [cleared, Arena.fillOutputs]
  have hsplit : feedBlock n inputs handles =
      ordered [.upload n.arena.memory, .stageFeed inputs n.arena.outputs.length]
        ++ dispatches handles
        ++ ([⟨.outputs n.arena.outputs.length, .ok none⟩]
          ++ [⟨.memory n.arena.memory.length, .ok none⟩]) := rfl
  rw [executeFeed_eq, hl, hsplit]
  refine grows_andThen (grows_runPass (n := cleared n) h _ .feed hk) (fun _ => rfl)
    fun _ d _ hd => ?_
  have ho := grows_fetchOutputs (n := onto (cleared n) d) hd
  rw [show (onto (cleared n) d).arena.outputs.length = n.arena.outputs.length from hl] at ho
  refine grows_andThen ho (fun _ => rfl) fun _ m hm hlog => ?_
  have hmem : m.arena.memory = n.arena.memory :=
    congrArg (fun r => r.2.arena.memory) hm.symm
  have hf := grows_fetchMemory hlog
  rw [hmem] at hf
  exact grows_answer hf _

theorem grows_executeTrain (h : networkLog n = some log) (rate : Value p)
    (targets : List (Value p)) (hk : n.trainKernels.map Kernel.handle = handles.map some) :
    Grows networkLog log (trainBlock n rate targets handles) (n.executeTrain rate targets) := by
  rw [executeTrain_eq]
  exact grows_andThen (grows_runPass h _ .train hk) (fun _ => rfl)
    fun _ d _ hd => grows_fetchMemory (n := onto n d) hd

end

section
variable [Device p δ]

variable {n : Network p δ} {handles : List Nat}

theorem calls_eq_nil {op : Operation p δ}
    (h : ((recording op).after (record n)).device = (record n).device) : calls op n = [] := by
  rw [calls, networkLog, h]
  rcases n with ⟨a, feed, train, d⟩
  cases d <;> rfl

theorem calls_silent {op : Operation p δ} (h : op.Silent) (n : Network p δ) : calls op n = [] := by
  have hs : (recording op).Silent := by
    cases op with
    | loadRecord r => trivial
    | loadText text => trivial
    | loadFile tree path => trivial
    | edit change => trivial
    | _ => exact h.elim
  exact calls_eq_nil (device_after hs (record n))

theorem networkLog_record (h : Device.accelerated p n.device = true) :
    networkLog (record n) = some [] := by
  rcases n with ⟨a, feed, train, d⟩
  cases d with
  | portable => cases h
  | attached d => rfl

theorem accelerated_record (n : Network p δ) :
    Device.accelerated p (record n).device = Device.accelerated p n.device := by
  rcases n with ⟨a, feed, train, d⟩
  cases d <;> rfl

theorem isExecutable_record (n : Network p δ) (pass : Pass) :
    (record n).isExecutable pass = n.isExecutable pass := by
  have h := faithful_device.isExecutable (record n) pass
  rwa [erase_record, eq_comm] at h

theorem calls_compile_refused (h : Device.accelerated p n.device = false) :
    calls .compile n = [] := by
  have hr := (accelerated_record n).trans h
  have hn : (recording .compile).after (record n) = (record n).unbind := (compile_refused hr).2
  apply calls_eq_nil
  rw [hn]
  rfl

/-- The calls of compiling, and the handles that it comes to when none of them fails. -/
theorem calls_compile (h : Device.accelerated p n.device = true) :
    ∃ handles, handles.length = n.kernels.length ∧
      Follows (compileBlock n handles) (calls .compile n) n.compile.result ∧
      (n.compile.result = .ok () →
        n.compile.network.kernels.map Kernel.handle = handles.map some) := by
  have ha := (accelerated_record n).trans h
  obtain ⟨hr, hn⟩ := compile_accelerated ha
  obtain ⟨hr', hn'⟩ := faithful_device.compile (record n)
  rw [erase_record] at hr' hn'
  have hlog : networkLog (record n).unbind = some [] := networkLog_record h
  obtain ⟨handles, hl, hfound, made, hf, hv⟩ := grows_program hlog
  have hc : calls .compile n = made := by
    have hafter : (recording .compile).after (record n) = (record n).compile.network := rfl
    simp [calls, hafter, hn, networkLog, onto, hv]
  have hb : compileBlock (record n).unbind handles = compileBlock n handles :=
    compileBlock_unbind n handles
  have hk : (record n).unbind.kernels.length = n.kernels.length := by
    rw [Network.unbind, Network.kernels_mapKernels, List.length_map]
    rfl
  refine ⟨handles, hl.trans hk, ?_, fun hok => ?_⟩
  · rw [hr', hr, hc, ← hb]
    cases hp : (program (record n).unbind).1 with
    | error e => rwa [hp] at hf
    | ok found => rwa [hp] at hf
  · rw [hr', hr] at hok
    cases hp : (program (record n).unbind).1 with
    | error e =>
      rw [hp] at hok
      cases hok
    | ok found =>
      obtain rfl := hfound found hp
      rw [hn', hn, hp]
      exact handles_bind hl

theorem calls_feed_idle (h : n.isExecutable .feed = false) (inputs : List (Value p)) :
    calls (.feed inputs) n = [] := by
  have he := (isExecutable_record n .feed).trans h
  exact calls_eq_nil (congrArg Network.device (feed_idle he inputs).2)

theorem calls_feed (h : n.isExecutable .feed = true) (inputs : List (Value p))
    (hk : n.feedKernels.map Kernel.handle = handles.map some) :
    Follows (feedBlock n inputs handles) (calls (.feed inputs) n) (n.feed inputs).result := by
  have hacc := ((isExecutable_iff n .feed).mp h).1
  have he := (isExecutable_record n .feed).trans h
  obtain ⟨hr, hn⟩ := feed_executed he inputs
  have hr' := (faithful_device.feed (record n) inputs).1
  rw [erase_record] at hr'
  obtain ⟨made, hf, hv⟩ := grows_executeFeed (n := record n) (networkLog_record hacc) inputs hk
  have hc : calls (.feed inputs) n = made := by
    have hafter : (recording (.feed inputs)).after (record n) =
      ((record n).feed inputs).network := rfl
    simp [calls, hafter, hn, hv]
  rw [hr', hr, hc]
  exact hf

theorem calls_train_idle (h : n.isExecutable .train = false) (rate : Value p)
    (targets : List (Value p)) : calls (.train rate targets) n = [] := by
  have he := (isExecutable_record n .train).trans h
  exact calls_eq_nil (congrArg Network.device (train_idle he rate targets).2)

theorem calls_train (h : n.isExecutable .train = true) (rate : Value p) (targets : List (Value p))
    (hk : n.trainKernels.map Kernel.handle = handles.map some) :
    Follows (trainBlock n rate targets handles) (calls (.train rate targets) n)
      (n.train rate targets).result := by
  have hacc := ((isExecutable_iff n .train).mp h).1
  have he := (isExecutable_record n .train).trans h
  obtain ⟨hr, hn⟩ := train_executed he rate targets
  have hr' := (faithful_device.train (record n) rate targets).1
  rw [erase_record] at hr'
  obtain ⟨made, hf, hv⟩ :=
    grows_executeTrain (n := record n) (networkLog_record hacc) rate targets hk
  have hc : calls (.train rate targets) n = made := by
    have hafter : (recording (.train rate targets)).after (record n) =
      ((record n).train rate targets).network := rfl
    simp [calls, hafter, hn, hv]
  rw [hr', hr, hc]
  exact hf

end

end NeuronKernels.CallBlocks
