import NeuronKernels.Proofs.PackingOptimality
import NeuronKernels.Proofs.RestoredNetworks
import Mathlib.Data.List.Nodup

/-!
# The handles of assembled kernels

A device looks kernels up by name, and a network binds them by position. The two agree because the
entry points of an assembled network are numbered through in each pass and so are all different
(`nodup_entryPoints`); they are stored and loaded as they are, and no other operation changes them
(`Assembled.numbered`). Then a place in the program is a position among the kernels
(`places_of_nodup`).
-/

namespace NeuronKernels.HandlePlaces
open BinaryFloat ComputeDevice DeviceContract KernelAssembly KernelGroups KernelNetwork KernelUnit
open MemoryArena NetworkRuns NetworkRuns.Operation NeuronGraph RestoredNetworks SimulatedDevice
open JsonRoundTrip PackingOptimality StoredNetworks

variable {p : Precision} {δ : Type}

theorem entryPoint_inj {a b : Pass} {i j : Nat} :
    a.entryPoint i = b.entryPoint j ↔ a = b ∧ i = j := by
  have numbered {word : String} (h : word ++ toString i = word ++ toString j) : i = j := by
    have hnumber : JsonLayout.number i = JsonLayout.number j := by
      simpa [JsonLayout.number] using congrArg String.toList ((String.append_right_inj word).mp h)
    rw [← digitsFrom_number i, hnumber, digitsFrom_number]
  have different : "feed_" ++ toString i ≠ "train_" ++ toString j := by
    intro h
    have hchars := congrArg (fun s => s.toList.head?) h
    simp at hchars
  have different' : "train_" ++ toString i ≠ "feed_" ++ toString j := by
    intro h
    have hchars := congrArg (fun s => s.toList.head?) h
    simp at hchars
  constructor
  · intro h
    cases a <;> cases b <;> simp only [entryPoint_feed, entryPoint_train] at h
    · exact ⟨rfl, numbered h⟩
    · exact absurd h different
    · exact absurd h different'
    · exact ⟨rfl, numbered h⟩
  · rintro ⟨rfl, rfl⟩
    rfl

/-- The kernels of each pass are named by their positions. -/
def Numbered (n : Network p δ) : Prop :=
  ∀ pass, (n.kernelsOf pass).map Kernel.entryPoint =
    (List.range (n.kernelsOf pass).length).map pass.entryPoint

theorem numbered_ofGraph (a : Arena p) (g : Graph) (budget : Nat) :
    Numbered (Network.ofGraph a g budget : Network p δ) := by
  intro pass
  apply List.ext_getElem
  · simp
  · intro i _ _
    cases pass with
    | feed =>
      simp [Network.kernelsOf, Network.ofGraph, feedKernels_eq_mapIdx, feedKernel, entryPoint_feed]
    | train =>
      simp [Network.kernelsOf, Network.ofGraph, trainKernels_eq_mapIdx, trainKernel,
        entryPoint_train]

theorem entryPoints_of_toRecord {n m : Network p δ} (h : m.toRecord = n.toRecord) (pass : Pass) :
    (m.kernelsOf pass).map Kernel.entryPoint = (n.kernelsOf pass).map Kernel.entryPoint := by
  cases pass with
  | feed =>
    have hfeed := congrArg (fun r => r.feed.map KernelRecord.entryPoint) h
    simpa [Network.toRecord, Network.kernelsOf, Kernel.toRecord, Function.comp_def] using hfeed
  | train =>
    have htrain := congrArg (fun r => r.train.map KernelRecord.entryPoint) h
    simpa [Network.toRecord, Network.kernelsOf, Kernel.toRecord, Function.comp_def] using htrain

theorem Numbered.of_toRecord {n m : Network p δ} (hn : Numbered n)
    (h : m.toRecord = n.toRecord) : Numbered m := by
  intro pass
  have hnames := entryPoints_of_toRecord h pass
  have hlength : (m.kernelsOf pass).length = (n.kernelsOf pass).length := by
    simpa using congrArg List.length hnames
  rw [hnames, hlength]
  exact hn pass

theorem Numbered.nodup {n : Network p δ} (hn : Numbered n) :
    (n.kernels.map Kernel.entryPoint).Nodup := by
  have hpass : ∀ pass, ((n.kernelsOf pass).map Kernel.entryPoint).Nodup := by
    intro pass
    rw [hn pass]
    exact List.nodup_range.map fun i j h => (entryPoint_inj.mp h).2
  rw [Network.kernels, List.map_append, List.nodup_append]
  refine ⟨hpass .feed, hpass .train, ?_⟩
  intro s hs t ht
  have hfeed := hn .feed
  have htrain := hn .train
  simp only [Network.kernelsOf] at hfeed htrain
  rw [hfeed, List.mem_map] at hs
  rw [htrain, List.mem_map] at ht
  obtain ⟨i, -, rfl⟩ := hs
  obtain ⟨j, -, rfl⟩ := ht
  intro h
  cases (entryPoint_inj.mp h).1

section
variable [Device p δ]

/-- An operation that loads nothing keeps the stored form. -/
theorem toRecord_after {op : Operation p δ} (h : op.record = none) (n : Network p δ) :
    (op.after n).toRecord = n.toRecord := by
  obtain ⟨device, rfl⟩ | rfl | ⟨r, hr⟩ | hq := op.cases_after
  · exact n.toRecord_unbind
  · exact toRecord_compile n
  · rw [h] at hr
    cases hr
  · obtain ⟨a, d, -, hn⟩ := hq.touched n
    rw [hn]
    rfl

/-- The network was assembled from a graph, or has loaded the stored form of such a network, and no
other kernels since. -/
inductive Assembled : Network p δ → Prop
  | ofGraph (a : Arena p) (g : Graph) (budget : Nat) : Assembled (.ofGraph a g budget)
  | reload {n : Network p δ} (h : Assembled n) (m : Network p δ) {op : Operation p δ}
      (loads : op.record = some n.toRecord) : Assembled (op.after m)
  | after {n : Network p δ} (h : Assembled n) {op : Operation p δ} (keeps : op.record = none) :
      Assembled (op.after n)

theorem Assembled.numbered {n : Network p δ} (h : Assembled n) : Numbered n := by
  induction h with
  | ofGraph a g budget => exact numbered_ofGraph a g budget
  | reload _ m loads ih =>
    apply ih.of_toRecord
    rw [after_of_record loads]
    exact m.toRecord_loadRecord _
  | after _ keeps ih => exact ih.of_toRecord (toRecord_after keeps _)

end

theorem place_getElem {names : List String} (h : names.Nodup) {i : Nat} (hi : i < names.length) :
    place names names[i] = some i := by
  rw [place, List.findIdx?_eq_some_iff_getElem]
  refine ⟨hi, by simp, fun j hji => ?_⟩
  have hne : j ≠ i := Nat.ne_of_lt hji
  simpa [h.getElem_inj_iff] using hne

theorem places_of_nodup {n : Network p δ} (h : (n.kernels.map Kernel.entryPoint).Nodup) :
    places (n.kernels.map Kernel.source) = (List.range n.kernels.length).map some := by
  have hnames : (n.kernels.map Kernel.source).map Source.entryPoint =
      n.kernels.map Kernel.entryPoint := List.map_map
  rw [places, hnames]
  apply List.ext_getElem
  · simp
  · intro i hi _
    rw [List.length_map] at hi
    rw [List.getElem_map, place_getElem h hi]
    simp

/-- A handle is the place of an entry point in the program that was built last, the first one if it
is there more than once. -/
structure FindsFirst (p : Precision) [Device p δ] (entryPoints : δ → List String) : Prop where
  build : ∀ {sources : List Source} {d e : δ},
    Device.order (.build sources : Order p) d = (.ok (), e) →
      entryPoints e = sources.map Source.entryPoint
  handleOf : ∀ {name : String} {handle : Nat} {d e : δ},
    Device.handleOf p name d = (.ok handle, e) →
      (entryPoints d).findIdx? (· == name) = some handle ∧ entryPoints e = entryPoints d

section
variable [Device p δ]

/-- A view in which there is nothing to see. -/
def blindView (p : Precision) (δ : Type) : View p δ where
  buffers _ := ⟨[], []⟩
  program _ := .idle p
  staged _ _ b := b

theorem FindsFirst.ofKind {entryPoints : δ → List String} (h : FindsFirst p entryPoints) :
    OfKind ⟨entryPoints, fun _ => .idle p⟩ (blindView p δ) where
  build hd := ⟨h.build hd, rfl⟩
  handleOf hd := h.handleOf hd

/-- Compiling that goes well gives every kernel its position as its handle. -/
theorem compile_positions {entryPoints : δ → List String} (h : FindsFirst p entryPoints)
    {n : Network p δ} (hn : (n.kernels.map Kernel.entryPoint).Nodup)
    (hr : n.compile.result = .ok ()) :
    ∃ d, n.compile.network = onto (n.unbind.bind (List.range n.kernels.length)) d := by
  obtain ⟨handles, d, hp, hnetwork⟩ := of_compile_ok hr
  have hplaces := places_program h.ofKind.attachment hp
  rw [sources_unbind, places_of_nodup hn] at hplaces
  have hhandles : handles = List.range n.kernels.length :=
    List.map_injective_iff.mpr (fun _ _ => Option.some.inj) hplaces
  exact ⟨d, hhandles ▸ hnetwork⟩

theorem handles_compile {entryPoints : δ → List String} (h : FindsFirst p entryPoints)
    {n : Network p δ} (hn : (n.kernels.map Kernel.entryPoint).Nodup)
    (hr : n.compile.result = .ok ()) :
    n.compile.network.kernels.map Kernel.handle =
      (List.range n.compile.network.kernels.length).map some := by
  obtain ⟨d, hnetwork⟩ := compile_positions h hn hr
  have hunbound : n.unbind.kernels.length = n.kernels.length := by
    simp [Network.unbind, Network.kernels_mapKernels]
  have hbound : (n.unbind.bind (List.range n.kernels.length)).kernels.map Kernel.handle =
      (List.range n.kernels.length).map some := handles_bind (by simp [hunbound])
  have hlength : (n.unbind.bind (List.range n.kernels.length)).kernels.length =
      n.kernels.length := by simpa using congrArg List.length hbound
  rw [hnetwork]
  change _ = (List.range (n.unbind.bind (List.range n.kernels.length)).kernels.length).map some
  rw [hlength]
  exact hbound

/-- The entry points of an assembled network are all different, also after it was stored and
loaded. On a device that finds the first equal entry point, compiling gives every kernel its own
position in the program as its handle, first the kernels of the forward pass and then the others,
and compiling again binds every kernel as before. -/
theorem assembled_handles {n : Network p δ} (hn : Assembled n) :
    (n.kernels.map Kernel.entryPoint).Nodup ∧
    ∀ entryPoints : δ → List String, FindsFirst p entryPoints → n.compile.result = .ok () →
      let m := n.compile.network
      m.toRecord = n.toRecord ∧
      (∀ i (k : Kernel), m.feedKernels[i]? = some k → k.handle = some i) ∧
      (∀ j (k : Kernel), m.trainKernels[j]? = some k → k.handle = some (m.feedKernels.length + j)) ∧
      (m.kernels.map Kernel.handle).Nodup ∧
      (m.compile.result = .ok () → ∃ d, m.compile.network = onto m d) := by
  have distinct := hn.numbered.nodup
  refine ⟨distinct, fun entryPoints h hr => ?_⟩
  intro m
  have hrecord : m.toRecord = n.toRecord := toRecord_compile n
  have hhandles : m.kernels.map Kernel.handle = (List.range m.kernels.length).map some :=
    handles_compile h distinct hr
  have hposition : ∀ i (k : Kernel), m.kernels[i]? = some k → k.handle = some i := by
    intro i k hk
    obtain ⟨hi, rfl⟩ := List.getElem?_eq_some_iff.mp hk
    have heq := congrArg (·[i]?) hhandles
    simpa [hi] using heq
  refine ⟨hrecord, fun i k hk => ?_, fun j k hk => ?_, ?_, fun hagain => ?_⟩
  · apply hposition
    have hi : i < m.feedKernels.length := (List.getElem?_eq_some_iff.mp hk).1
    rw [Network.kernels, List.getElem?_append_left hi, hk]
  · apply hposition
    rw [Network.kernels, List.getElem?_append_right (Nat.le_add_right _ j), Nat.add_sub_cancel_left,
      hk]
  · rw [hhandles]
    exact List.nodup_range.map fun _ _ => Option.some.inj
  · have hm := (hn.numbered.of_toRecord hrecord).nodup
    obtain ⟨d, hnetwork⟩ := compile_positions h hm hagain
    exact ⟨d, by rw [hnetwork, bind_unbind hhandles]⟩

end

theorem findsFirst_simulated (p : Precision) :
    FindsFirst p (fun d : Simulated p => d.names) where
  build hd := ((ofKind_simulated p).build hd).1
  handleOf hd := (ofKind_simulated p).handleOf hd

/-- The network of `crowdedGraph`, with five kernels. -/
def crowdedSource : Network .single (Simulated .single) :=
  .ofGraph Arena.empty crowdedGraph 6

def crowdedLoad : Operation .single (Simulated .single) := .loadRecord crowdedSource.toRecord

def crowdedAttach : Operation .single (Simulated .single) :=
  .attach (.attached (Simulated.start .single [] false []))

/-- A network that has loaded the five kernels and has a device. -/
def crowdedNetwork : Network .single (Simulated .single) :=
  crowdedAttach.after (crowdedLoad.after (.ofArena Arena.empty))

theorem handles_crowdedNetwork :
    FindsFirst .single (fun d : Simulated .single => d.names) ∧ Assembled crowdedNetwork ∧
      crowdedNetwork.compile.result = .ok () ∧
      crowdedNetwork.compile.network.kernels.map Kernel.handle =
        [some 0, some 1, some 2, some 3, some 4] ∧
      ∃ d, crowdedNetwork.compile.network.compile.network =
        onto crowdedNetwork.compile.network d := by
  have hsource : Assembled crowdedSource := .ofGraph Arena.empty crowdedGraph 6
  have hloaded : Assembled (crowdedLoad.after (.ofArena Arena.empty)) := .reload hsource _ rfl
  have hassembled : Assembled crowdedNetwork := .after hloaded rfl
  have hcompiled : crowdedNetwork.compile.result = .ok () := by decide +kernel
  have hagain : crowdedNetwork.compile.network.compile.result = .ok () := by decide +kernel
  have hfirst := findsFirst_simulated .single
  obtain ⟨-, hhandles⟩ := assembled_handles hassembled
  obtain ⟨-, -, -, -, hsame⟩ := hhandles _ hfirst hcompiled
  exact ⟨hfirst, hassembled, hcompiled, by decide +kernel, hsame hagain⟩

end NeuronKernels.HandlePlaces
