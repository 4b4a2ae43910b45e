import NeuronKernels.Proofs.JsonRoundTrip
import NeuronKernels.Proofs.BuiltNetworks

/-!
# Networks that are stored and loaded

The text of a stored network gives back the stored network, whatever is in the texts of its kernels,
as long as their counts fit 64 bits. In a network that can be reached every kernel stands with the
kernels of its own pass (`inPass_run`), so the kernels come back as they were, without handles.
-/

namespace NeuronKernels.StoredNetworks
open BinaryFloat ComputeDevice JsonReading JsonRoundTrip KernelAssembly KernelNetwork KernelUnit
open MemoryArena NetworkRuns NetworkRuns.Operation StoredNetwork TextPieces

/-- The counts of all kernels fit 64 bits. -/
def CountsFit (r : NetworkRecord) : Prop := ∀ k ∈ r.feed ++ r.train, k.expressions < wordLimit

/-- A kernel with one field of another. -/
def setKernelField (k known : KernelRecord) : KernelField → KernelRecord
  | .expressions => { known with expressions := k.expressions }
  | .entryPoint => { known with entryPoint := k.entryPoint }
  | .text => { known with text := k.text }

theorem kernel_matches {k : KernelRecord} (hk : k.expressions < wordLimit) :
    Matches kernelShape (kernelFieldText k) (setKernelField k) where
  names := by decide
  nodup := by decide
  reads f _ known := by
    cases f with
    | expressions => exact (reads_number hk "u64").map fun n => { known with expressions := n }
    | entryPoint => exact (reads_text k.entryPoint).map fun s => { known with entryPoint := s }
    | text => exact (reads_text k.text).map fun s => { known with text := s }

theorem reads_kernel {k : KernelRecord} (hk : k.expressions < wordLimit) :
    Reads readKernel (kernelText k) k :=
  reads_object (kernel_matches hk) ⟨0, "", ""⟩ 2

theorem reads_kernels {ks : List KernelRecord} (hk : ∀ k ∈ ks, k.expressions < wordLimit) :
    Reads (readList readKernel) (JsonLayout.list 1 (ks.map kernelText)) ks :=
  reads_items (fun k hmem => reads_kernel (hk k hmem)) 1

/-- A network with one field of another. -/
def setNetworkField (r known : NetworkRecord) : NetworkField → NetworkRecord
  | .feed => { known with feed := r.feed }
  | .train => { known with train := r.train }

theorem network_matches {r : NetworkRecord} (h : CountsFit r) :
    Matches networkShape (networkFieldText r) (setNetworkField r) where
  names := by decide
  nodup := by decide
  reads f _ known := by
    cases f with
    | feed =>
      have hfeed : ∀ k ∈ r.feed, k.expressions < wordLimit := fun k hk => h k (by simp [hk])
      exact (reads_kernels hfeed).map fun ks => { known with feed := ks }
    | train =>
      have htrain : ∀ k ∈ r.train, k.expressions < wordLimit := fun k hk => h k (by simp [hk])
      exact (reads_kernels htrain).map fun ks => { known with train := ks }

theorem ofText_text {r : NetworkRecord} (h : CountsFit r) :
    NetworkRecord.ofText r.text = .ok r := by
  have hread : readDocument (networkShape.reader ⟨[], []⟩) r.text = .ok r :=
    readDocument_text (reads_object (network_matches h) ⟨[], []⟩ 0)
  rw [NetworkRecord.ofText, hread]

section
variable {p : Precision} {δ ε : Type}

/-- Every kernel stands with the kernels of its own pass. -/
def InPass (n : Network p δ) : Prop := ∀ pass, ∀ k ∈ n.kernelsOf pass, k.pass = pass

theorem kernelsOf_unbind (n : Network p δ) (pass : Pass) :
    n.unbind.kernelsOf pass = (n.kernelsOf pass).map Kernel.unbind := by
  cases pass with
  | feed => rfl
  | train => rfl

theorem inPass_unbind {n : Network p δ} : InPass n.unbind ↔ InPass n := by
  constructor
  · intro h pass k hk
    apply h pass k.unbind
    rw [kernelsOf_unbind]
    exact List.mem_map_of_mem hk
  · intro h pass k hk
    rw [kernelsOf_unbind] at hk
    obtain ⟨k', hk', rfl⟩ := List.mem_map.mp hk
    exact h pass k' hk'

theorem map_unbind_zipWith {ks : List Kernel} {handles : List Nat}
    (h : ks.length ≤ handles.length) :
    (ks.zipWith Kernel.bind handles).map Kernel.unbind = ks.map Kernel.unbind := by
  apply List.ext_getElem
  · simp [h]
  · intro i _ _
    simp [Kernel.bind, Kernel.unbind]

theorem unbind_bind {n : Network p δ} {handles : List Nat}
    (h : handles.length = n.kernels.length) : (n.bind handles).unbind = n.unbind := by
  have hl : handles.length = n.feedKernels.length + n.trainKernels.length := by
    simpa [Network.kernels] using h
  have hfeed : n.feedKernels.length ≤ handles.length := by omega
  have htrain : n.trainKernels.length ≤ (handles.drop n.feedKernels.length).length := by
    rw [List.length_drop]
    omega
  simp only [Network.unbind, Network.mapKernels, Network.bind, map_unbind_zipWith hfeed,
    map_unbind_zipWith htrain]

theorem unbind_unbind (n : Network p δ) : n.unbind.unbind = n.unbind := by
  simp [Network.unbind, Network.mapKernels, Kernel.unbind, Function.comp_def]

theorem inPass_loadRecord (n : Network p δ) (r : NetworkRecord) : InPass (n.loadRecord r) := by
  intro pass k hk
  cases pass with
  | feed =>
    obtain ⟨k', -, rfl⟩ := List.mem_map.mp hk
    rfl
  | train =>
    obtain ⟨k', -, rfl⟩ := List.mem_map.mp hk
    rfl

theorem inPass_ofGraph (a : Arena p) (g : NeuronGraph.Graph) (budget : Nat) :
    InPass (Network.ofGraph a g budget : Network p δ) := by
  intro pass k hk
  cases pass with
  | feed =>
    rw [Network.kernelsOf, Network.ofGraph, KernelGroups.feedKernels_eq_mapIdx] at hk
    obtain ⟨i, hi, rfl⟩ := List.mem_mapIdx.mp hk
    rfl
  | train =>
    rw [Network.kernelsOf, Network.ofGraph, KernelGroups.trainKernels_eq_mapIdx] at hk
    obtain ⟨i, hi, rfl⟩ := List.mem_mapIdx.mp hk
    rfl

theorem inPass_network (origin : Origin p) : InPass (origin.network : Network p δ) := by
  cases origin with
  | arena a =>
    intro pass k hk
    cases pass <;> cases hk
  | graph a g budget => exact inPass_ofGraph a g budget
  | record a r => exact inPass_loadRecord _ r

variable [Device p δ]

theorem unbind_compile (n : Network p δ) : ∃ d, n.compile.network.unbind = onto n.unbind d := by
  have hback : ∀ (m : Network p δ) d, (onto m d).unbind = onto m.unbind d := fun _ _ => rfl
  obtain ⟨_, d, -, -, hn⟩ | ⟨handles, d, -, -, -, hl, hn⟩ := compile_cases n
  · exact ⟨d, by rw [hn, hback, unbind_unbind]⟩
  · exact ⟨d, by rw [hn, hback, unbind_bind hl, unbind_unbind]⟩

theorem inPass_run (origin : Origin p) (ops : List (Operation p δ)) :
    InPass (run ops origin.network : Network p δ) := by
  induction ops using List.reverseRecOn with
  | nil => exact inPass_network origin
  | append_singleton ops op ih =>
    rw [run_concat]
    obtain ⟨device, rfl⟩ | rfl | ⟨r, hr⟩ | hq := op.cases_after
    · exact inPass_unbind.mpr ih
    · obtain ⟨d, hd⟩ := unbind_compile (run ops origin.network)
      apply inPass_unbind.mp
      rw [after, hd]
      exact inPass_unbind.mpr ih
    · rw [after_of_record hr]
      exact inPass_loadRecord _ r
    · obtain ⟨a, d, -, hn⟩ := hq.touched (run ops origin.network)
      rw [hn]
      exact ih

/-- Loading came out well and gave the second network the kernels of the first one, without handles.
With the same arena it is written out as the same files. -/
structure Restores (n : Network p δ) (m : Network p ε) (loaded : Outcome p ε Unit) : Prop where
  result : loaded.result = .ok ()
  network : loaded.network =
    { m with
      feedKernels := n.feedKernels.map Kernel.unbind
      trainKernels := n.trainKernels.map Kernel.unbind }
  standalone : m.arena = n.arena → ∀ name token constOnly,
    loaded.network.standalone name token constOnly = n.standalone name token constOnly

omit [Device p δ] in
theorem map_toKernel {n : Network p δ} (h : InPass n) (pass : Pass) :
    ((n.kernelsOf pass).map Kernel.toRecord).map (fun k => k.toKernel pass) =
      (n.kernelsOf pass).map Kernel.unbind := by
  rw [List.map_map]
  apply List.map_congr_left
  intro k hk
  have hpass : k.pass = pass := h pass k hk
  rw [← hpass]
  exact toKernel_toRecord k

omit [Device p δ] in
theorem loadRecord_toRecord {n : Network p δ} (h : InPass n) (m : Network p ε) :
    m.loadRecord n.toRecord =
      { m with
        feedKernels := n.feedKernels.map Kernel.unbind
        trainKernels := n.trainKernels.map Kernel.unbind } := by
  have hfeed := map_toKernel h .feed
  have htrain := map_toKernel h .train
  simp only [Network.kernelsOf] at hfeed htrain
  simp only [Network.loadRecord, Network.toRecord, hfeed, htrain]

omit [Device p δ] in
/-- The files of a network do not tell whether it is built. -/
theorem standalone_unbind (n : Network p δ) (name token : String) (constOnly : Bool) :
    n.unbind.standalone name token constOnly = n.standalone name token constOnly := by
  rcases n with ⟨a, feed, train, d⟩
  cases feed with
  | nil => rfl
  | cons k feed =>
    cases train with
    | nil => rfl
    | cons k' train => cases constOnly <;> rfl

omit [Device p δ] in
theorem toRecord_of_same_kernels {n : Network p δ} {m : Network p ε}
    (h : ∀ pass, (m.kernelsOf pass).map Kernel.unbind = (n.kernelsOf pass).map Kernel.unbind) :
    m.toRecord = n.toRecord := by
  have hrecord : ∀ ks : List Kernel,
      ks.map Kernel.toRecord = (ks.map Kernel.unbind).map Kernel.toRecord := by
    intro ks
    rw [List.map_map]
    rfl
  have hfeed : m.feedKernels.map Kernel.unbind = n.feedKernels.map Kernel.unbind := h .feed
  have htrain : m.trainKernels.map Kernel.unbind = n.trainKernels.map Kernel.unbind := h .train
  rw [Network.toRecord, Network.toRecord, hrecord m.feedKernels, hrecord m.trainKernels, hfeed,
    htrain, ← hrecord, ← hrecord]

theorem toRecord_compile (n : Network p δ) : n.compile.network.toRecord = n.toRecord := by
  obtain ⟨d, hd⟩ := unbind_compile n
  calc n.compile.network.toRecord
    _ = n.compile.network.unbind.toRecord := (Network.toRecord_unbind _).symm
    _ = n.unbind.toRecord := by rw [hd]; rfl
    _ = n.toRecord := Network.toRecord_unbind n

omit [Device p δ] in
theorem restores_loadText {n : Network p δ} (h : InPass n) (hc : CountsFit n.toRecord)
    (m : Network p ε) : Restores n m (m.loadText n.toRecord.text) := by
  have hload : m.loadText n.toRecord.text =
      ⟨.ok (), m.loadRecord n.toRecord, [Network.loadedEvent n.toRecord]⟩ := by
    rw [Network.loadText, ofText_text hc]
  have hnetwork := loadRecord_toRecord h m
  rw [hload]
  refine ⟨rfl, hnetwork, fun ha name token constOnly => ?_⟩
  rw [← standalone_unbind n, hnetwork]
  simp only [Network.standalone, ha]
  rfl

/-- A stored network comes back from its text as it was. The text of a network that can be reached
does not tell whether it is built, and loading it gives any network the same kernels without handles
and changes nothing else. -/
theorem stored_networks_reload :
    (∀ r : NetworkRecord, CountsFit r → NetworkRecord.ofText r.text = .ok r) ∧
    ∀ (origin : Origin p) (ops : List (Operation p δ)),
      let n : Network p δ := run ops origin.network
      n.compile.network.toRecord.text = n.toRecord.text ∧
      (∀ m : Network p ε,
        (∀ pass, (m.kernelsOf pass).map Kernel.unbind = (n.kernelsOf pass).map Kernel.unbind) →
        m.toRecord.text = n.toRecord.text) ∧
      (CountsFit n.toRecord → ∀ m : Network p ε, Restores n m (m.loadText n.toRecord.text)) := by
  refine ⟨fun r => ofText_text, fun origin ops => ⟨?_, fun m hm => ?_, fun hc m => ?_⟩⟩
  · rw [toRecord_compile]
  · rw [toRecord_of_same_kernels hm]
  · exact restores_loadText (inPass_run origin ops) hc m

end

/-- A network whose texts have quotes, backslashes, control characters and characters far up in the
code space, and whose counts are the smallest and the largest. -/
def oddRecord : NetworkRecord :=
  ⟨[⟨18446744073709551615, "feed_\"0\"", "\\ line\n\ttab \x01 \x7f é 漢 𝔽"⟩, ⟨0, "", ""⟩], []⟩

theorem reload_oddRecord :
    let n : Network .single (SimulatedDevice.Simulated .single) :=
      run [.attach (.attached (SimulatedDevice.Simulated.start .single [] false [])), .compile]
        (Origin.record Arena.empty oddRecord).network
    let m : Network .single Portable := .ofArena Arena.empty
    CountsFit oddRecord ∧ NetworkRecord.ofText oddRecord.text = .ok oddRecord ∧
      n.kernels.map Kernel.handle = [some 0, some 1] ∧
      (m.loadText n.toRecord.text).network.toRecord = oddRecord ∧
      (m.loadText n.toRecord.text).network.standalone "odd" "token" false =
        n.standalone "odd" "token" false := by
  intro n m
  have hfits : CountsFit oddRecord := by
    unfold CountsFit
    decide +kernel
  have hrecord : n.toRecord = oddRecord := by decide +kernel
  obtain ⟨hreload, hnetworks⟩ := stored_networks_reload (p := .single)
    (δ := SimulatedDevice.Simulated .single) (ε := Portable)
  obtain ⟨-, -, hload⟩ := hnetworks (.record Arena.empty oddRecord)
    [.attach (.attached (SimulatedDevice.Simulated.start .single [] false [])), .compile]
  have hcounts : CountsFit n.toRecord := by
    rw [hrecord]
    exact hfits
  have hrestores : Restores n m (m.loadText n.toRecord.text) := hload hcounts m
  have harena : m.arena = n.arena := by decide +kernel
  have hreloaded := hreload oddRecord hfits
  have hbuilt : n.kernels.map Kernel.handle = [some 0, some 1] := by decide +kernel
  have hsame := hrestores.standalone harena "odd" "token" false
  have hloaded : (m.loadText n.toRecord.text).network.toRecord = oddRecord := by
    rw [hrestores.network, ← hrecord]
    exact Network.toRecord_unbind n
  exact ⟨hfits, hreloaded, hbuilt, hloaded, hsame⟩

end NeuronKernels.StoredNetworks
