import NeuronKernels.Proofs.KernelGroups

/-!
# Kernels of a graph that grows

Whether an item joins the open group depends on what came before it and never on what comes later.
So packing a longer list begins as packing the shorter one does: the groups that were closed stay
closed, and the one that was open takes in more items (`packFrom_append`, `packFrom_opens`). For the
forward pass the later items are a layer behind the others, and for the training pass, which goes
through the graph from its end, a layer in front of them.
-/

namespace NeuronKernels.GrownGraphs
open BinaryFloat KernelUnit KernelAssembly KernelGroups MemoryArena NeuronGraph

variable {α : Type} {p : Precision}

section
variable (fits : Nat → Nat → Bool) (size : α → Nat)

/-- Some items close some groups and leave one open, and all later items meet only that one. -/
theorem packFrom_append (group : List α) (total : Nat) (items : List α) :
    ∃ closed opened sum, ∀ more, packFrom fits size group total (items ++ more) =
      closed ++ packFrom fits size opened sum more := by
  induction items generalizing group total with
  | nil => exact ⟨[], group, total, fun more => rfl⟩
  | cons a rest ih =>
    by_cases hf : fits total (size a)
    · obtain ⟨closed, opened, sum, h⟩ := ih (a :: group) (total + size a)
      refine ⟨closed, opened, sum, fun more => ?_⟩
      simpa [packFrom, hf] using h more
    · obtain ⟨closed, opened, sum, h⟩ := ih [a] (size a)
      refine ⟨group.reverse :: closed, opened, sum, fun more => ?_⟩
      simpa [packFrom, hf] using h more

/-- The open group is the start of the next one that is closed. -/
theorem packFrom_opens (group : List α) (total : Nat) (items : List α) :
    ∃ extra later, packFrom fits size group total items = (group.reverse ++ extra) :: later := by
  induction items generalizing group total with
  | nil => exact ⟨[], [], by simp [packFrom]⟩
  | cons a rest ih =>
    by_cases hf : fits total (size a)
    · obtain ⟨extra, later, h⟩ := ih (a :: group) (total + size a)
      exact ⟨a :: extra, later, by simp [packFrom, hf, h]⟩
    · exact ⟨[], packFrom fits size [a] (size a) rest, by simp [packFrom, hf]⟩

theorem pack_append {items : List α} (h : items ≠ []) (more : List α) :
    ∃ closed last extra later, pack fits size items = closed ++ [last] ∧
      pack fits size (items ++ more) = closed ++ (last ++ extra) :: later := by
  cases items with
  | nil => exact absurd rfl h
  | cons a rest =>
    obtain ⟨closed, opened, sum, happend⟩ := packFrom_append fits size [a] (size a) rest
    obtain ⟨extra, later, hopens⟩ := packFrom_opens fits size opened sum more
    refine ⟨closed, opened.reverse, extra, later, ?_, ?_⟩
    · have hclosed := happend []
      rwa [List.append_nil] at hclosed
    · rw [← hopens]
      exact happend more

end

/-- The kernels of a list of neurons, and those of the list with more neurons behind it. All but the
last of the former are among the latter, in their places, and the last goes on in its place. -/
structure Continues (kernelOf : Nat → List Neuron → Kernel) (items more : List Neuron)
    (groups grown : List (List Neuron)) (kernels after : List Kernel) : Prop where
  divides : Divides groups items
  kernels_eq : kernels = groups.mapIdx kernelOf
  divides_grown : Divides grown (items ++ more)
  after_eq : after = grown.mapIdx kernelOf
  count : kernels.length ≤ after.length
  unchanged : kernels.dropLast <+: after
  last : ∀ group, groups.getLast? = some group →
    ∃ extra, grown[kernels.length - 1]? = some (group ++ extra)

theorem continues_pack (fits : Nat → Nat → Bool) (size : Neuron → Nat)
    (kernelOf : Nat → List Neuron → Kernel) (items more : List Neuron) :
    Continues kernelOf items more (pack fits size items) (pack fits size (items ++ more))
      ((pack fits size items).mapIdx kernelOf)
      ((pack fits size (items ++ more)).mapIdx kernelOf) := by
  have hdivides := divides_pack fits size items
  have hgrown := divides_pack fits size (items ++ more)
  by_cases hitems : items = []
  · subst hitems
    exact ⟨hdivides, rfl, hgrown, rfl, Nat.zero_le _, List.nil_prefix, nofun⟩
  · obtain ⟨closed, last, extra, later, hpack, happend⟩ := pack_append fits size hitems more
    rw [hpack] at hdivides ⊢
    rw [happend] at hgrown ⊢
    refine ⟨hdivides, rfl, hgrown, rfl, ?_, ?_, ?_⟩
    · simp only [List.length_mapIdx, List.length_append, List.length_cons, List.length_nil]
      omega
    · rw [List.mapIdx_concat, List.dropLast_concat, List.mapIdx_append]
      exact List.prefix_append _ _
    · intro group hgroup
      rw [List.getLast?_concat, Option.some.injEq] at hgroup
      subst hgroup
      exact ⟨extra, by simp⟩

theorem backward_cons (layer : List Neuron) (g : Graph) :
    (⟨layer :: g.layers⟩ : Graph).backward = g.backward ++ layer.reverse := by
  simp [Graph.backward]

/-- A layer behind the others leaves all kernels of the forward pass but the last as they are, and a
layer in front of the others those of the training pass; the last kernel gets further neurons. A
layer without neurons changes nothing. -/
theorem kernels_of_grown_graph (g : Graph) (layer : List Neuron) (a : Arena p) (budget : Nat) :
    Continues (feedKernel a) g.forward layer
      (feedGroups g budget) (feedGroups (g.pushLayer layer) budget)
      (feedKernels g a budget) (feedKernels (g.pushLayer layer) a budget) ∧
    Continues (trainKernel a) g.forward.reverse layer.reverse
      (trainGroups g budget) (trainGroups ⟨layer :: g.layers⟩ budget)
      (trainKernels g a budget) (trainKernels ⟨layer :: g.layers⟩ a budget) ∧
    feedKernels (g.pushLayer []) a budget = feedKernels g a budget ∧
    trainKernels ⟨[] :: g.layers⟩ a budget = trainKernels g a budget := by
  refine ⟨?_, ?_, ?_, ?_⟩
  · rw [feedKernels_eq_mapIdx, feedKernels_eq_mapIdx, feedGroups, feedGroups,
      Graph.forward_pushLayer]
    exact continues_pack _ _ _ _ _
  · rw [trainKernels_eq_mapIdx, trainKernels_eq_mapIdx, trainGroups, trainGroups, backward_cons,
      ← Graph.backward_eq_reverse]
    exact continues_pack _ _ _ _ _
  · rw [feedKernels_eq_mapIdx, feedKernels_eq_mapIdx, feedGroups, feedGroups,
      Graph.forward_pushLayer, List.append_nil]
  · rw [trainKernels_eq_mapIdx, trainKernels_eq_mapIdx, trainGroups, trainGroups, backward_cons,
      List.reverse_nil, List.append_nil]

end NeuronKernels.GrownGraphs
