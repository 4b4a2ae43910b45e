import NeuronKernels.Proofs.KernelGroups

/-!
# No division needs fewer kernels

An admissible division cuts a list into consecutive groups, each a single item or of an allowed
total. Packing closes a group only when the next item does not fit any more, so the first group of
another admissible division never reaches further (`first_within`). What is left of a list after
some items are dropped from its front needs no more groups than before (`Admissible.drop`). These
two carry the induction over the items (`length_packFrom_le`).
-/

namespace NeuronKernels.PackingOptimality
open BinaryFloat KernelUnit KernelAssembly KernelGroups MemoryArena NeuronGraph

variable {α : Type} {p : Precision}

/-- Consecutive groups, none of them empty, each a single item or of an allowed total. -/
structure Admissible (allowed : Nat → Prop) (size : α → Nat) (groups : List (List α))
    (items : List α) : Prop extends Divides groups items where
  within : ∀ group ∈ groups, group.length = 1 ∨ allowed (group.map size).sum

/-- An item fits exactly if the total with it is allowed, and less than an allowed total is
allowed. -/
structure Gauges (fits : Nat → Nat → Bool) (allowed : Nat → Prop) : Prop where
  fits_iff : ∀ total incoming, fits total incoming = true ↔ allowed (total + incoming)
  of_le : ∀ {less more : Nat}, less ≤ more → allowed more → allowed less

theorem gauges_feedFits (limit : Nat) : Gauges (feedFits limit) (· < limit) where
  fits_iff total incoming := by simp [feedFits]
  of_le hle hm := Nat.lt_of_le_of_lt hle hm

theorem gauges_trainFits (limit : Nat) : Gauges (trainFits limit) (· ≤ limit) where
  fits_iff total incoming := by simp [trainFits]
  of_le hle hm := Nat.le_trans hle hm

section
variable {allowed : Nat → Prop} {size : α → Nat} {fits : Nat → Nat → Bool}

theorem Admissible.tail {group : List α} {groups : List (List α)} {items : List α}
    (h : Admissible allowed size (group :: groups) items) :
    Admissible allowed size groups groups.flatten where
  flatten_eq := rfl
  ne_nil part hp := h.ne_nil part (List.mem_cons_of_mem group hp)
  within part hp := h.within part (List.mem_cons_of_mem group hp)

theorem Admissible.drop_head (hg : Gauges fits allowed) {groups : List (List α)} {a : α}
    {items : List α} (h : Admissible allowed size groups (a :: items)) :
    ∃ rest, Admissible allowed size rest items ∧ rest.length ≤ groups.length := by
  cases groups with
  | nil =>
    have hnil := h.flatten_eq
    simp at hnil
  | cons group groups =>
    cases group with
    | nil => exact absurd rfl (h.ne_nil [] (by simp))
    | cons b group =>
      have hflat := h.flatten_eq
      simp only [List.flatten_cons, List.cons_append, List.cons.injEq] at hflat
      obtain ⟨rfl, rfl⟩ := hflat
      cases group with
      | nil => exact ⟨groups, h.tail, by simp⟩
      | cons c group =>
        refine ⟨(c :: group) :: groups, ⟨⟨rfl, ?_⟩, ?_⟩, by simp⟩
        · intro part hp
          rcases List.mem_cons.mp hp with rfl | hp
          · simp
          · exact h.tail.ne_nil part hp
        · intro part hp
          rcases List.mem_cons.mp hp with rfl | hp
          · have hb := h.within (b :: c :: group) (by simp)
            simp only [List.length_cons, Nat.reduceEqDiff, false_or] at hb
            right
            exact hg.of_le (by simp) hb
          · exact h.tail.within part hp

theorem Admissible.drop (hg : Gauges fits allowed) (front : List α) {groups : List (List α)}
    {items : List α} (h : Admissible allowed size groups (front ++ items)) :
    ∃ rest, Admissible allowed size rest items ∧ rest.length ≤ groups.length := by
  induction front generalizing groups with
  | nil => exact ⟨groups, h, Nat.le_refl _⟩
  | cons a front ih =>
    obtain ⟨rest, hr, hle⟩ := h.drop_head hg
    obtain ⟨rest', hr', hle'⟩ := ih hr
    exact ⟨rest', hr', Nat.le_trans hle' hle⟩

/-- The first group of an admissible division ends no later than a group that has no room for the
item behind it. -/
theorem first_within (hg : Gauges fits allowed) {group first more rest : List α} {a : α}
    (hne : group ≠ []) (hfull : fits (group.map size).sum (size a) = false)
    (hfirst : first.length = 1 ∨ allowed (first.map size).sum)
    (h : first ++ more = group ++ a :: rest) : ∃ left, more = left ++ a :: rest := by
  rcases List.append_eq_append_iff.mp h with ⟨left, -, hm⟩ | ⟨extra, rfl, ho⟩
  · exact ⟨left, hm⟩
  · cases extra with
    | nil => exact ⟨[], by simpa using ho.symm⟩
    | cons b extra =>
      obtain ⟨rfl, -⟩ := List.cons.inj ho
      have hlong : ¬ (group ++ a :: extra).length = 1 := by
        have hpos := List.length_pos_iff.mpr hne
        simp only [List.length_append, List.length_cons]
        omega
      have hsum := hfirst.resolve_left hlong
      have hle : (group.map size).sum + size a ≤ ((group ++ a :: extra).map size).sum := by
        simp only [List.map_append, List.map_cons, List.sum_append, List.sum_cons]
        omega
      have hfits := (hg.fits_iff _ _).mpr (hg.of_le hle hsum)
      rw [hfull] at hfits
      cases hfits

theorem length_packFrom_le (hg : Gauges fits allowed) {group : List α} (hne : group ≠ [])
    {total : Nat} (ht : total = (group.map size).sum) (items : List α)
    {other : List (List α)} (h : Admissible allowed size other (group.reverse ++ items)) :
    (packFrom fits size group total items).length ≤ other.length := by
  induction items generalizing group total other with
  | nil =>
    have hother : other ≠ [] := by
      intro ho
      have hitems := h.eq_nil_iff.mp ho
      simp [hne] at hitems
    have hpos := List.length_pos_iff.mpr hother
    simp only [packFrom, List.length_singleton]
    exact hpos
  | cons a rest ih =>
    by_cases hf : fits total (size a)
    · have hopen : (a :: group).reverse ++ rest = group.reverse ++ a :: rest := by simp
      have hsum : total + size a = ((a :: group).map size).sum := by
        simp only [List.map_cons, List.sum_cons, ht]
        omega
      simp only [packFrom, hf, if_true]
      exact ih (List.cons_ne_nil a group) hsum (hopen ▸ h)
    · cases other with
      | nil =>
        have hnil := h.flatten_eq
        simp at hnil
      | cons first others =>
        have hfull : fits (group.reverse.map size).sum (size a) = false := by
          rw [List.map_reverse, List.sum_reverse, ← ht]
          simpa using hf
        obtain ⟨left, hl⟩ := first_within hg (by simpa using hne) hfull
          (h.within first (by simp)) h.flatten_eq
        obtain ⟨fewer, hfewer, hle⟩ := (hl ▸ h.tail).drop hg left
        have hrest := ih (List.cons_ne_nil a []) (List.sum_singleton).symm hfewer
        simp only [packFrom, hf, Bool.false_eq_true, if_false, List.length_cons]
        omega

theorem within_packFrom (hg : Gauges fits allowed) {group : List α} {total : Nat}
    (ht : total = (group.map size).sum) (hopen : group.length = 1 ∨ allowed total)
    (items : List α) :
    ∀ part ∈ packFrom fits size group total items,
      part.length = 1 ∨ allowed (part.map size).sum := by
  have hclosed : group.reverse.length = 1 ∨ allowed (group.reverse.map size).sum := by
    rw [List.map_reverse, List.sum_reverse, List.length_reverse, ← ht]
    exact hopen
  induction items generalizing group total with
  | nil => simpa [packFrom] using hclosed
  | cons a rest ih =>
    by_cases hf : fits total (size a)
    · have hsum : total + size a = ((a :: group).map size).sum := by
        simp only [List.map_cons, List.sum_cons, ht]
        omega
      have hallowed := (hg.fits_iff total (size a)).mp hf
      simp only [packFrom, hf, if_true]
      refine ih hsum (.inr hallowed) (.inr ?_)
      rwa [List.map_reverse, List.sum_reverse, ← hsum]
    · simp only [packFrom, hf, Bool.false_eq_true, if_false, List.mem_cons]
      rintro part (rfl | hp)
      · exact hclosed
      · exact ih (by simp) (.inl rfl) (.inl rfl) part hp

theorem admissible_pack (hg : Gauges fits allowed) (items : List α) :
    Admissible allowed size (pack fits size items) items where
  toDivides := divides_pack fits size items
  within := by
    cases items with
    | nil => simp [pack]
    | cons a rest => exact within_packFrom hg (by simp) (.inl rfl) rest

theorem length_pack_le (hg : Gauges fits allowed) {items : List α} {other : List (List α)}
    (h : Admissible allowed size other items) :
    (pack fits size items).length ≤ other.length := by
  cases items with
  | nil => simp [pack]
  | cons a rest => exact length_packFrom_le hg (List.cons_ne_nil a []) (by simp) rest h

end

/-- The groups are admissible, no admissible division of the items has fewer, and each group is one
kernel. Where the count of a kernel is not allowed, the kernel holds a single neuron. -/
structure Optimal (allowed : Nat → Prop) (size : Neuron → Nat) (groups : List (List Neuron))
    (items : List Neuron) (kernels : List Kernel) : Prop where
  admissible : Admissible allowed size groups items
  least : ∀ other, Admissible allowed size other items → kernels.length ≤ other.length
  single : ∀ (position : Nat) (kernel : Kernel) (group : List Neuron),
    kernels[position]? = some kernel → groups[position]? = some group →
      ¬ allowed kernel.expressions → ∃ n, group = [n]

theorem optimal_pack {allowed : Nat → Prop} {fits : Nat → Nat → Bool} (hg : Gauges fits allowed)
    (size : Neuron → Nat) (items : List Neuron) {kernelOf : Nat → List Neuron → Kernel}
    (hk : ∀ position group, (kernelOf position group).expressions = (group.map size).sum) :
    Optimal allowed size (pack fits size items) items
      ((pack fits size items).mapIdx kernelOf) where
  admissible := admissible_pack hg items
  least other h := by
    rw [List.length_mapIdx]
    exact length_pack_le hg h
  single position kernel group hkernel hgroup hover := by
    have hmem := List.mem_of_getElem? hgroup
    rw [List.getElem?_mapIdx, hgroup] at hkernel
    obtain rfl : kernelOf position group = kernel := by simpa using hkernel
    rw [hk] at hover
    have hlength := ((admissible_pack hg items).within group hmem).resolve_right hover
    exact List.length_eq_one_iff.mp hlength

/-- The groups that assembly makes of both orders are admissible, the totals of the forward pass
staying below the limit and those of the training pass within it, and no admissible division has
fewer groups than there are kernels. -/
theorem kernels_fewest (g : Graph) (a : Arena p) (budget : Nat) :
    (∃ groups : List (List Neuron), feedKernels g a budget = groups.mapIdx (feedKernel a) ∧
      Optimal (· < max budget 100) (fun n => n.feed.size + n.trace.size) groups g.forward
        (feedKernels g a budget)) ∧
    (∃ groups : List (List Neuron), trainKernels g a budget = groups.mapIdx (trainKernel a) ∧
      Optimal (· ≤ max budget 100) (fun n => n.train.size) groups g.forward.reverse
        (trainKernels g a budget)) := by
  refine ⟨⟨_, feedKernels_eq_mapIdx g a budget, ?_⟩, ⟨_, trainKernels_eq_mapIdx g a budget, ?_⟩⟩
  · rw [feedKernels_eq_mapIdx]
    exact optimal_pack (gauges_feedFits (max budget 100)) _ g.forward fun _ _ => rfl
  · rw [trainKernels_eq_mapIdx, ← Graph.backward_eq_reverse]
    exact optimal_pack (gauges_trainFits (max budget 100)) _ g.backward fun _ _ => rfl

/-- A neuron with so many expressions for each pass. -/
def plainNeuron (feed train : Nat) : Neuron :=
  ⟨⟨List.replicate feed "x[0] = 1"⟩, ⟨[]⟩, ⟨List.replicate train "x[0] = 2"⟩⟩

/-- The second neuron fills a kernel of the forward pass by itself, and the ones around it bring
nothing to that pass. -/
def crowdedGraph : Graph := ⟨[[plainNeuron 0 60, plainNeuron 100 60], [plainNeuron 0 40]]⟩

/-- The three neurons of `crowdedGraph` need a kernel each in the forward pass and two in the other
one. -/
theorem kernels_of_crowdedGraph :
    (∀ other, Admissible (· < max 6 100) (fun n => n.feed.size + n.trace.size) other
        crowdedGraph.forward → 3 ≤ other.length) ∧
    Admissible (· ≤ max 6 100) (fun n => n.train.size)
      [[plainNeuron 0 40, plainNeuron 100 60], [plainNeuron 0 60]] crowdedGraph.forward.reverse ∧
    (trainKernels crowdedGraph (Arena.empty : Arena .single) 6).length ≤ 2 := by
  obtain ⟨⟨feedGroups, -, hfeed⟩, ⟨trainGroups, -, htrain⟩⟩ :=
    kernels_fewest crowdedGraph (Arena.empty : Arena .single) 6
  have hthree : (feedKernels crowdedGraph (Arena.empty : Arena .single) 6).length = 3 := by
    decide +kernel
  have hpair : Admissible (· ≤ max 6 100) (fun n => n.train.size)
      [[plainNeuron 0 40, plainNeuron 100 60], [plainNeuron 0 60]]
      crowdedGraph.forward.reverse := by
    refine ⟨⟨by decide +kernel, by decide +kernel⟩, ?_⟩
    intro group hg
    obtain rfl | rfl := by simpa using hg
    · exact .inr (by decide +kernel)
    · exact .inl rfl
  refine ⟨fun other h => ?_, hpair, htrain.least _ hpair⟩
  rw [← hthree]
  exact hfeed.least other h

end NeuronKernels.PackingOptimality
