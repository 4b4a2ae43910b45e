import Mathlib.Algebra.GroupWithZero.Nat
import NeuronKernels.KernelAssembly

/-!
# Kernels as groups of neurons

Packing divides a list into consecutive parts, none of them empty (`divides_pack`). Each part
becomes one kernel, and `feedKernel` and `trainKernel` say letter by letter what that kernel is. The
drafts through which kernels are written do not occur in these two, so that later modules can speak
of kernels without them.
-/

namespace NeuronKernels.KernelGroups
open BinaryFloat KernelUnit KernelLayout KernelAssembly MemoryArena NeuronGraph StatementFragment

variable {α : Type} {p : Precision}

/-- The groups are consecutive parts of the list, and none of them is empty. -/
structure Divides (groups : List (List α)) (items : List α) : Prop where
  flatten_eq : groups.flatten = items
  ne_nil : ∀ group ∈ groups, group ≠ []

theorem Divides.eq_nil_iff {groups : List (List α)} {items : List α} (h : Divides groups items) :
    groups = [] ↔ items = [] := by
  constructor
  · rintro rfl
    exact h.flatten_eq.symm
  · intro hi
    have hall := List.flatten_eq_nil_iff.mp (h.flatten_eq.trans hi)
    cases groups with
    | nil => rfl
    | cons group rest => exact absurd (hall group (by simp)) (h.ne_nil group (by simp))

theorem ne_nil_of_mem_packFrom {fits : Nat → Nat → Bool} {size : α → Nat} {group : List α}
    (h : group ≠ []) (total : Nat) (items : List α) :
    ∀ part ∈ packFrom fits size group total items, part ≠ [] := by
  induction items generalizing group total with
  | nil => simpa [packFrom] using h
  | cons a rest ih =>
    by_cases hf : fits total (size a)
    · simpa [packFrom, hf] using ih (List.cons_ne_nil a group) (total + size a)
    · simp only [packFrom, hf, Bool.false_eq_true, if_false, List.mem_cons]
      rintro part (rfl | hp)
      · simpa using h
      · exact ih (List.cons_ne_nil a []) (size a) part hp

theorem divides_pack (fits : Nat → Nat → Bool) (size : α → Nat) (items : List α) :
    Divides (pack fits size items) items where
  flatten_eq := flatten_pack fits size items
  ne_nil := by
    cases items with
    | nil => simp [pack]
    | cons a rest => exact ne_nil_of_mem_packFrom (List.cons_ne_nil a []) (size a) rest

def feedKernel (a : Arena p) (position : Nat) (group : List Neuron) : Kernel where
  pass := .feed
  entryPoint := "feed_" ++ toString position
  text := signature p .openCl .feed ("feed_" ++ toString position) ++ (a.inputsFragment.text
    ++ TextPieces.concat (group.map fun n => n.feed.text ++ n.trace.text)
    ++ a.outputsFragment.text) ++ "\x7d\n"
  expressions := (group.map fun n => n.feed.size + n.trace.size).sum
  handle := none

def trainKernel (a : Arena p) (position : Nat) (group : List Neuron) : Kernel where
  pass := .train
  entryPoint := "train_" ++ toString position
  text := signature p .openCl .train ("train_" ++ toString position) ++ (a.rateFragment.text
    ++ a.targetsFragment.text ++ TextPieces.concat (group.map fun n => n.train.text)) ++ "\x7d\n"
  expressions := (group.map fun n => n.train.size).sum
  handle := none

theorem entryPoint_feed (position : Nat) :
    Pass.feed.entryPoint position = "feed_" ++ toString position := by
  have hw : Pass.feed.word ++ "_" = "feed_" := by decide
  rw [Pass.entryPoint, hw]

theorem entryPoint_train (position : Nat) :
    Pass.train.entryPoint position = "train_" ++ toString position := by
  have hw : Pass.train.word ++ "_" = "train_" := by decide
  rw [Pass.entryPoint, hw]

theorem pushNeurons_eq (text : Neuron → String) (size : Neuron → Nat) (d : Draft)
    (ns : List Neuron) :
    pushNeurons text size d ns =
      { d with body := d.body ++ ns.map text
               expressions := d.expressions + (ns.map size).sum } := by
  unfold pushNeurons
  induction ns generalizing d with
  | nil => simp
  | cons n ns ih =>
    rw [List.foldl_cons, ih]
    simp [Draft.pushNeuron, Nat.add_assoc]

/-- A fragment without expressions gives no chunk, and no text either. -/
theorem concat_chunks (f : Fragment) : TextPieces.concat (Draft.chunks f) = f.text := by
  unfold Draft.chunks
  split
  · next h =>
    have he : f.expressions = [] := by simpa [Fragment.isEmpty] using h
    simp [Fragment.text, he]
  · simp [TextPieces.concat]

theorem render_openCl (d : Draft) :
    d.render p .openCl =
      signature p .openCl d.pass d.entryPoint ++ TextPieces.concat d.statements ++ closing := by
  have hl : d.statements.map Dialect.openCl.lower = d.statements := List.map_id' d.statements
  simp only [Draft.render, hl]

theorem feedDraft_eq (a : Arena p) (position : Nat) (group : List Neuron) :
    feedDraft a position group =
      { pass := .feed
        entryPoint := "feed_" ++ toString position
        prologue := Draft.chunks a.inputsFragment
        body := group.map Neuron.feedText
        epilogue := Draft.chunks a.outputsFragment
        expressions := (group.map Neuron.feedSize).sum } := by
  simp [feedDraft, pushNeurons_eq, Draft.pushPrologue, Draft.pushEpilogue, Draft.start,
    entryPoint_feed]

theorem trainDraft_eq (a : Arena p) (position : Nat) (group : List Neuron) :
    trainDraft a position group =
      { pass := .train
        entryPoint := "train_" ++ toString position
        prologue := Draft.chunks a.rateFragment ++ Draft.chunks a.targetsFragment
        body := group.map Neuron.trainText
        epilogue := []
        expressions := (group.map Neuron.trainSize).sum } := by
  simp [trainDraft, pushNeurons_eq, Draft.pushPrologue, Draft.start, entryPoint_train]

theorem toKernel_feedDraft (a : Arena p) (position : Nat) (group : List Neuron) :
    (feedDraft a position group).toKernel p = feedKernel a position group := by
  simp only [feedDraft_eq, Draft.toKernel, render_openCl, Draft.statements,
    TextPieces.concat_append, concat_chunks]
  rfl

theorem toKernel_trainDraft (a : Arena p) (position : Nat) (group : List Neuron) :
    (trainDraft a position group).toKernel p = trainKernel a position group := by
  simp only [trainDraft_eq, Draft.toKernel, render_openCl, Draft.statements, List.append_nil,
    TextPieces.concat_append, concat_chunks]
  rfl

theorem feedKernels_eq_mapIdx (g : Graph) (a : Arena p) (budget : Nat) :
    feedKernels g a budget = (feedGroups g budget).mapIdx (feedKernel a) := by
  simp only [feedKernels, feedDrafts, List.mapIdx_eq_zipIdx_map, List.map_map, Function.comp_def,
    toKernel_feedDraft]

theorem trainKernels_eq_mapIdx (g : Graph) (a : Arena p) (budget : Nat) :
    trainKernels g a budget = (trainGroups g budget).mapIdx (trainKernel a) := by
  simp only [trainKernels, trainDrafts, List.mapIdx_eq_zipIdx_map, List.map_map,
    Function.comp_def, toKernel_trainDraft]

theorem divides_feedGroups (g : Graph) (budget : Nat) : Divides (feedGroups g budget) g.forward :=
  divides_pack _ _ _

theorem divides_trainGroups (g : Graph) (budget : Nat) :
    Divides (trainGroups g budget) g.forward.reverse := by
  rw [← Graph.backward_eq_reverse]
  exact divides_pack _ _ _

theorem feedKernels_eq_nil_iff (g : Graph) (a : Arena p) (budget : Nat) :
    feedKernels g a budget = [] ↔ g.neuronCount = 0 := by
  rw [feedKernels_eq_mapIdx, List.mapIdx_eq_nil_iff, (divides_feedGroups g budget).eq_nil_iff,
    Graph.neuronCount_eq_length, List.length_eq_zero_iff]

theorem trainKernels_eq_nil_iff (g : Graph) (a : Arena p) (budget : Nat) :
    trainKernels g a budget = [] ↔ g.neuronCount = 0 := by
  rw [trainKernels_eq_mapIdx, List.mapIdx_eq_nil_iff, (divides_trainGroups g budget).eq_nil_iff,
    Graph.neuronCount_eq_length, List.reverse_eq_nil_iff, List.length_eq_zero_iff]

/-- Assembly divides the forward order for one pass and its reverse for the other; every group is
one kernel, in its place, and there are no kernels only where there are no neurons. -/
theorem kernels_partition_graph (g : Graph) (a : Arena p) (budget : Nat) :
    (∃ groups, Divides groups g.forward ∧
      feedKernels g a budget = groups.mapIdx (feedKernel a)) ∧
    (∃ groups, Divides groups g.forward.reverse ∧
      trainKernels g a budget = groups.mapIdx (trainKernel a)) ∧
    (feedKernels g a budget = [] ↔ g.neuronCount = 0) ∧
    (trainKernels g a budget = [] ↔ g.neuronCount = 0) :=
  ⟨⟨_, divides_feedGroups g budget, feedKernels_eq_mapIdx g a budget⟩,
    ⟨_, divides_trainGroups g budget, trainKernels_eq_mapIdx g a budget⟩,
    feedKernels_eq_nil_iff g a budget, trainKernels_eq_nil_iff g a budget⟩

end NeuronKernels.KernelGroups
