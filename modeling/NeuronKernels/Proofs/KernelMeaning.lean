import NeuronKernels.Proofs.KernelGroups

/-!
# What packing does to the meaning of kernels

A meaning of statements tells how a text of statements changes the arena and the outputs, for kernel
arguments that stay the same. Every kernel copies the arguments in before its neurons, and a kernel
of the forward pass copies the outputs out behind them, so packing neurons into several kernels
repeats these copies in the middle of a pass. The copies in change nothing as long as the neurons
leave the bound slots alone (`storeAll_eq_self`), and what is copied out too early is written over
by the last kernel (`storeAll_storeAll`). `foldl_wrapped` puts the two together for any packing.
-/

namespace NeuronKernels.KernelMeaning
open BinaryFloat KernelUnit KernelLayout KernelAssembly KernelGroups MemoryArena NeuronGraph
open StatementFragment

variable {p : Precision}

/-- The array with values written at places, one after the other. -/
def storeAll {α : Type} (writes : List (Nat × α)) (array : List α) : List α :=
  writes.foldl (fun array w => array.set w.1 w.2) array

section
variable {α : Type} {writes : List (Nat × α)}

theorem length_storeAll (writes : List (Nat × α)) (array : List α) :
    (storeAll writes array).length = array.length := by
  unfold storeAll
  induction writes generalizing array with
  | nil => rfl
  | cons w writes ih => simpa using ih (array.set w.1 w.2)

theorem getElem?_storeAll_of_not_mem {i : Nat} (h : i ∉ writes.map Prod.fst) (array : List α) :
    (storeAll writes array)[i]? = array[i]? := by
  induction writes generalizing array with
  | nil => rfl
  | cons w writes ih =>
    simp only [List.map_cons, List.mem_cons, not_or] at h
    have hs : (array.set w.1 w.2)[i]? = array[i]? := List.getElem?_set_ne (Ne.symm h.1)
    exact (ih h.2 (array.set w.1 w.2)).trans hs

/-- What stands at a written place does not depend on what stood there before. -/
theorem getElem?_storeAll_of_mem {i : Nat} (h : i ∈ writes.map Prod.fst) {array other : List α}
    (hl : i < array.length ↔ i < other.length) :
    (storeAll writes array)[i]? = (storeAll writes other)[i]? := by
  induction writes generalizing array other with
  | nil => simp at h
  | cons w writes ih =>
    by_cases hi : i ∈ writes.map Prod.fst
    · exact ih hi (by simpa using hl)
    · have hw : w.1 = i := by
        simp only [List.map_cons, List.mem_cons, hi, or_false] at h
        exact h.symm
      calc (storeAll (w :: writes) array)[i]?
          = (array.set w.1 w.2)[i]? := getElem?_storeAll_of_not_mem hi _
        _ = (other.set w.1 w.2)[i]? := by simp [List.getElem?_set, hw, hl]
        _ = (storeAll (w :: writes) other)[i]? := (getElem?_storeAll_of_not_mem hi _).symm

/-- Writing again changes nothing in an array that still holds what was written. -/
theorem storeAll_eq_self {array : List α} (before : List α)
    (h : ∀ i ∈ writes.map Prod.fst, array[i]? = (storeAll writes before)[i]?) :
    storeAll writes array = array := by
  apply List.ext_getElem?
  intro i
  by_cases hi : i ∈ writes.map Prod.fst
  · have hl : i < array.length ↔ i < before.length := by
      have hn : array[i]? = none ↔ (storeAll writes before)[i]? = none := by rw [h i hi]
      rw [List.getElem?_eq_none_iff, List.getElem?_eq_none_iff, length_storeAll] at hn
      omega
    rw [getElem?_storeAll_of_mem hi hl, h i hi]
  · exact getElem?_storeAll_of_not_mem hi array

/-- Only the last values count that are written at the same places. -/
theorem storeAll_storeAll {later : List (Nat × α)}
    (h : later.map Prod.fst = writes.map Prod.fst) (array : List α) :
    storeAll later (storeAll writes array) = storeAll later array := by
  apply List.ext_getElem?
  intro i
  by_cases hi : i ∈ later.map Prod.fst
  · exact getElem?_storeAll_of_mem hi (by rw [length_storeAll])
  · rw [getElem?_storeAll_of_not_mem hi, getElem?_storeAll_of_not_mem hi,
      getElem?_storeAll_of_not_mem (h ▸ hi)]

end

/-- Steps that are each wrapped in the same opening and ending, against one opening, the steps, and
one ending. The relation says which states an ending makes equal. -/
theorem foldl_wrapped {β σ : Type} {enter leave : σ → σ} {body : β → σ → σ} {R : σ → σ → Prop}
    (first : β) (rest : List β)
    (settled : ∀ b ∈ first :: rest, ∀ s,
      enter (leave (body b (enter s))) = leave (body b (enter s)))
    (left : ∀ s, R (leave s) s)
    (step : ∀ b ∈ first :: rest, ∀ s t, R s t → R (body b s) (body b t))
    (merge : ∀ s t, R s t → leave s = leave t) (s : σ) :
    (first :: rest).foldl (fun s b => leave (body b (enter s))) s =
      leave ((first :: rest).foldl (fun s b => body b s) (enter s)) := by
  induction rest generalizing first s with
  | nil => rfl
  | cons b rest ih =>
    have hs : ∀ c ∈ b :: rest, c ∈ first :: b :: rest := fun c hc => List.mem_cons_of_mem _ hc
    have hrest := ih b (fun c hc => settled c (hs c hc)) (fun c hc => step c (hs c hc))
      (leave (body first (enter s)))
    rw [settled first (by simp) s] at hrest
    rw [List.foldl_cons, hrest, List.foldl_cons]
    exact merge _ _ (List.foldl_rel (left _) fun c hc s t h => step c (hs c hc) s t h)

/-- What kernels change: the arena and the outputs. -/
structure Arrays (p : Precision) where
  memory : List (Value p)
  outputs : List (Value p)

/-- What a text of statements does, for arguments that stay the same. -/
abbrev Meaning (p : Precision) := String → Arrays p → Arrays p

/-- Statements that stand one after the other are done one after the other. -/
structure Compositional (meaning : Meaning p) : Prop where
  empty : ∀ s, meaning "" s = s
  append : ∀ (f g : Fragment) s, meaning (f.text ++ g.text) s = meaning g.text (meaning f.text s)

/-- A meaning for the forward pass, under which the bindings of an arena do what they spell. A slot
that does not exist cannot be written and reads as zero. -/
structure FeedMeaning (a : Arena p) (input : Nat → Value p) (meaning : Meaning p) : Prop
    extends Compositional meaning where
  input : ∀ k slot, a.inputs[k]? = some slot → ∀ s,
    meaning ("x[" ++ toString slot ++ "] = input[" ++ toString k ++ "];\n") s =
      { s with memory := s.memory.set slot (input k) }
  output : ∀ k slot, a.outputBindings[k]? = some slot → ∀ s,
    meaning ("output[" ++ toString k ++ "] = x[" ++ toString slot ++ "];\n") s =
      { s with outputs := s.outputs.set k (s.memory.getD slot Value.zero) }

/-- A meaning for the training pass, under which the bindings of an arena do what they spell. -/
structure TrainMeaning (a : Arena p) (rate : Value p) (target : Nat → Value p)
    (meaning : Meaning p) : Prop extends Compositional meaning where
  rate : ∀ slot, a.rate = some slot → ∀ s,
    meaning ("x[" ++ toString slot ++ "] = rate[0];\n") s =
      { s with memory := s.memory.set slot rate }
  target : ∀ k slot, a.targets[k]? = some slot → ∀ s,
    meaning ("x[" ++ toString slot ++ "] = target[" ++ toString k ++ "];\n") s =
      { s with memory := s.memory.set slot (target k) }

/-- The expression does not write the slots. -/
def Spares (meaning : Meaning p) (slots : List Nat) (expression : String) : Prop :=
  ∀ s, ∀ slot ∈ slots, (meaning (statement expression) s).memory[slot]? = s.memory[slot]?

/-- The expression neither reads nor writes the outputs. -/
def IgnoresOutputs (meaning : Meaning p) (expression : String) : Prop :=
  ∀ memory outputs, meaning (statement expression) ⟨memory, outputs⟩ =
    ⟨(meaning (statement expression) ⟨memory, []⟩).memory, outputs⟩

theorem text_cons (e : String) (es : List String) :
    Fragment.text ⟨e :: es⟩ = Fragment.text ⟨[e]⟩ ++ Fragment.text ⟨es⟩ :=
  (Fragment.text_append ⟨[e]⟩ ⟨es⟩)

theorem text_single (e : String) : Fragment.text ⟨[e]⟩ = statement e := by
  simp [Fragment.text, TextPieces.concat]

/-- A fragment means its statements, one after the other. -/
theorem Compositional.text {meaning : Meaning p} (h : Compositional meaning) (f : Fragment)
    (s : Arrays p) :
    meaning f.text s = f.expressions.foldl (fun s e => meaning (statement e) s) s := by
  rcases f with ⟨es⟩
  induction es generalizing s with
  | nil => exact h.empty s
  | cons e es ih => rw [text_cons, h.append, text_single, List.foldl_cons, ih]

/-- Reads a text line by line and acts on every line that ends; `line` holds the letters of the line
that is being read, the last one first. -/
def actOnLines (act : List Char → Arrays p → Arrays p) :
    (line : List Char) → List Char → Arrays p → Arrays p
  | _, [], s => s
  | line, c :: cs, s =>
    if c = '\n' then actOnLines act [] cs (act line.reverse s)
    else actOnLines act (c :: line) cs s

/-- The meaning of a text as that of its lines. -/
def lineMeaning (act : List Char → Arrays p → Arrays p) : Meaning p :=
  fun text s => actOnLines act [] text.toList s

theorem actOnLines_append (act : List Char → Arrays p → Arrays p) (line cs rest : List Char)
    (s : Arrays p) :
    actOnLines act line (cs ++ '\n' :: rest) s =
      actOnLines act [] rest (actOnLines act line (cs ++ ['\n']) s) := by
  induction cs generalizing line s with
  | nil => simp [actOnLines]
  | cons c cs ih =>
    by_cases hc : c = '\n'
    · simpa [actOnLines, hc] using ih [] (act line.reverse s)
    · simpa [actOnLines, hc] using ih (c :: line) s

theorem compositional_lineMeaning (act : List Char → Arrays p → Arrays p) :
    Compositional (lineMeaning act) where
  empty _ := rfl
  append f g s := by
    rcases f with ⟨es⟩
    induction es generalizing s with
    | nil => simp [Fragment.text, TextPieces.concat, lineMeaning, actOnLines]
    | cons e es ih =>
      have hone : ∀ (text : String) s, lineMeaning act (statement e ++ text) s =
          lineMeaning act text (lineMeaning act (statement e) s) := by
        intro text s
        have h := actOnLines_append act [] (e.toList ++ [';']) text.toList s
        simpa [lineMeaning, statement, List.append_assoc] using h
      rw [text_cons, text_single, String.append_assoc, hone, ih, hone]

theorem Compositional.spares {meaning : Meaning p} (h : Compositional meaning) {slots : List Nat}
    {f : Fragment} (hf : ∀ e ∈ f.expressions, Spares meaning slots e) (s : Arrays p) {slot : Nat}
    (hs : slot ∈ slots) : (meaning f.text s).memory[slot]? = s.memory[slot]? := by
  rcases f with ⟨es⟩
  rw [h.text]
  induction es generalizing s with
  | nil => rfl
  | cons e es ih =>
    have he : (meaning (statement e) s).memory[slot]? = s.memory[slot]? := hf e (by simp) s slot hs
    exact (ih _ fun e' he' => hf e' (List.mem_cons_of_mem _ he')).trans he

theorem Compositional.ignoresOutputs {meaning : Meaning p} (h : Compositional meaning)
    {f : Fragment} (hf : ∀ e ∈ f.expressions, IgnoresOutputs meaning e)
    (memory outputs : List (Value p)) :
    meaning f.text ⟨memory, outputs⟩ = ⟨(meaning f.text ⟨memory, []⟩).memory, outputs⟩ := by
  rcases f with ⟨es⟩
  rw [h.text, h.text]
  induction es generalizing memory with
  | nil => rfl
  | cons e es ih =>
    rw [List.foldl_cons, List.foldl_cons, hf e (by simp) memory outputs, hf e (by simp) memory []]
    exact ih _ fun e' he' => hf e' (List.mem_cons_of_mem _ he')

/-- Statements that each write one slot write them all. -/
theorem Compositional.stores {meaning : Meaning p} (h : Compositional meaning)
    (bs : List (String × Nat × Value p))
    (hb : ∀ b ∈ bs, ∀ s, meaning (statement b.1) s =
      { s with memory := s.memory.set b.2.1 b.2.2 }) (s : Arrays p) :
    meaning (Fragment.text ⟨bs.map Prod.fst⟩) s =
      { s with memory := storeAll (bs.map Prod.snd) s.memory } := by
  rw [h.text]
  induction bs generalizing s with
  | nil => rfl
  | cons b bs ih =>
    rw [List.map_cons, List.foldl_cons, hb b (by simp),
      ih fun b' hb' => hb b' (List.mem_cons_of_mem _ hb')]
    rfl

/-- Statements that each copy one slot out copy them all. -/
theorem Compositional.emits {meaning : Meaning p} (h : Compositional meaning)
    (bs : List (String × Nat × Nat))
    (hb : ∀ b ∈ bs, ∀ s, meaning (statement b.1) s =
      { s with outputs := s.outputs.set b.2.1 (s.memory.getD b.2.2 Value.zero) }) (s : Arrays p) :
    meaning (Fragment.text ⟨bs.map Prod.fst⟩) s =
      ⟨s.memory, storeAll (bs.map fun b => (b.2.1, s.memory.getD b.2.2 Value.zero)) s.outputs⟩ := by
  rw [h.text]
  induction bs generalizing s with
  | nil => rfl
  | cons b bs ih =>
    rw [List.map_cons, List.foldl_cons, hb b (by simp),
      ih fun b' hb' => hb b' (List.mem_cons_of_mem _ hb')]
    rfl

theorem statement_input (slot k : Nat) :
    statement (Arena.assignment (Arena.element "x" slot) (Arena.element "input" k)) =
      "x[" ++ toString slot ++ "] = input[" ++ toString k ++ "];\n" := by
  apply String.toList_inj.mp
  simp [statement, Arena.assignment, Arena.element]

theorem statement_output (k slot : Nat) :
    statement (Arena.assignment (Arena.element "output" k) (Arena.element "x" slot)) =
      "output[" ++ toString k ++ "] = x[" ++ toString slot ++ "];\n" := by
  apply String.toList_inj.mp
  simp [statement, Arena.assignment, Arena.element]

theorem statement_rate (slot : Nat) :
    statement (Arena.assignment (Arena.element "x" slot) (Arena.element "rate" 0)) =
      "x[" ++ toString slot ++ "] = rate[0];\n" := by
  apply String.toList_inj.mp
  simp [statement, Arena.assignment, Arena.element]

theorem statement_target (slot k : Nat) :
    statement (Arena.assignment (Arena.element "x" slot) (Arena.element "target" k)) =
      "x[" ++ toString slot ++ "] = target[" ++ toString k ++ "];\n" := by
  apply String.toList_inj.mp
  simp [statement, Arena.assignment, Arena.element]

/-- What the inputs write into the arena. -/
def inputWrites (a : Arena p) (input : Nat → Value p) : List (Nat × Value p) :=
  a.inputs.mapIdx fun k slot => (slot, input k)

/-- What the slots write into the outputs. -/
def outputWrites (a : Arena p) (memory : List (Value p)) : List (Nat × Value p) :=
  a.outputBindings.mapIdx fun k slot => (k, memory.getD slot Value.zero)

/-- What the learning rate and then the targets write into the arena. -/
def trainWrites (a : Arena p) (rate : Value p) (target : Nat → Value p) :
    List (Nat × Value p) :=
  (a.rate.toList.map fun slot => (slot, rate)) ++ a.targets.mapIdx fun k slot => (slot, target k)

theorem map_fst_inputWrites (a : Arena p) (input : Nat → Value p) :
    (inputWrites a input).map Prod.fst = a.inputs := by
  simp [inputWrites, List.mapIdx_eq_zipIdx_map, Function.comp_def]

theorem map_fst_trainWrites (a : Arena p) (rate : Value p) (target : Nat → Value p) :
    (trainWrites a rate target).map Prod.fst = a.rate.toList ++ a.targets := by
  simp [trainWrites, List.mapIdx_eq_zipIdx_map, Function.comp_def]

theorem map_fst_outputWrites (a : Arena p) (memory other : List (Value p)) :
    (outputWrites a memory).map Prod.fst = (outputWrites a other).map Prod.fst := by
  simp [outputWrites, List.mapIdx_eq_zipIdx_map, Function.comp_def]

theorem FeedMeaning.enter {a : Arena p} {input : Nat → Value p} {meaning : Meaning p}
    (h : FeedMeaning a input meaning) (s : Arrays p) :
    meaning a.inputsFragment.text s =
      { s with memory := storeAll (inputWrites a input) s.memory } := by
  have hs := h.stores (a.inputs.mapIdx fun k slot =>
    (Arena.assignment (Arena.element "x" slot) (Arena.element "input" k), slot, input k)) ?_ s
  · simpa [Arena.inputsFragment, inputWrites, List.mapIdx_eq_zipIdx_map, Function.comp_def] using hs
  · intro b hb s
    obtain ⟨k, hk, rfl⟩ := List.mem_mapIdx.mp hb
    rw [statement_input]
    exact h.input k _ (List.getElem?_eq_getElem hk) s

theorem FeedMeaning.leave {a : Arena p} {input : Nat → Value p} {meaning : Meaning p}
    (h : FeedMeaning a input meaning) (s : Arrays p) :
    meaning a.outputsFragment.text s =
      { s with outputs := storeAll (outputWrites a s.memory) s.outputs } := by
  have hs := h.emits (a.outputBindings.mapIdx fun k slot =>
    (Arena.assignment (Arena.element "output" k) (Arena.element "x" slot), k, slot)) ?_ s
  · simpa [Arena.outputsFragment, outputWrites, List.mapIdx_eq_zipIdx_map,
      Function.comp_def] using hs
  · intro b hb s
    obtain ⟨k, hk, rfl⟩ := List.mem_mapIdx.mp hb
    rw [statement_output]
    exact h.output k _ (List.getElem?_eq_getElem hk) s

theorem TrainMeaning.enter {a : Arena p} {rate : Value p} {target : Nat → Value p}
    {meaning : Meaning p} (h : TrainMeaning a rate target meaning) (s : Arrays p) :
    meaning (a.rateFragment.text ++ a.targetsFragment.text) s =
      { s with memory := storeAll (trainWrites a rate target) s.memory } := by
  have hs := h.stores ((a.rate.toList.map fun slot =>
      (Arena.assignment (Arena.element "x" slot) (Arena.element "rate" 0), slot, rate)) ++
    a.targets.mapIdx fun k slot =>
      (Arena.assignment (Arena.element "x" slot) (Arena.element "target" k), slot, target k)) ?_ s
  · rw [← Fragment.text_append]
    simpa [Arena.rateFragment, Arena.targetsFragment, Fragment.append, trainWrites,
      List.mapIdx_eq_zipIdx_map, Function.comp_def] using hs
  · intro b hb s
    rcases List.mem_append.mp hb with hb | hb
    · obtain ⟨slot, hslot, rfl⟩ := List.mem_map.mp hb
      rw [statement_rate]
      exact h.rate slot (Option.mem_toList.mp hslot) s
    · obtain ⟨k, hk, rfl⟩ := List.mem_mapIdx.mp hb
      rw [statement_target]
      exact h.target k _ (List.getElem?_eq_getElem hk) s

/-- Runs a kernel: its statements stand between its opening and its end. -/
def runKernel (meaning : Meaning p) (k : Kernel) (s : Arrays p) : Option (Arrays p) :=
  (Draft.ofSource p k.source).map fun d => meaning (TextPieces.concat d.statements) s

def runKernels (meaning : Meaning p) : List Kernel → Arrays p → Option (Arrays p)
  | [], s => some s
  | k :: rest, s => (runKernel meaning k s).bind (runKernels meaning rest)

theorem runKernel_of_layout (meaning : Meaning p) {k : Kernel} {text : String}
    (h : k.text = signature p .openCl k.pass k.entryPoint ++ text ++ closing) (s : Arrays p) :
    runKernel meaning k s = some (meaning text s) := by
  have hsource : k.source = ⟨k.pass, k.entryPoint,
      signature p .openCl k.pass k.entryPoint ++ text ++ closing⟩ := by
    rw [Kernel.source, h]
  have hd : TextPieces.concat (if text = "" then [] else [text]) = text := by
    split
    · next hempty => exact hempty.symm
    · simp [TextPieces.concat]
  simp [runKernel, hsource, Draft.ofSource_layout, Draft.statements, Draft.start, hd]

/-- Kernels of groups run like a fold over the groups. -/
theorem runKernels_mapIdx {β : Type} {meaning : Meaning p} {kernel : Nat → β → Kernel}
    {act : β → Arrays p → Arrays p}
    (h : ∀ i b s, runKernel meaning (kernel i b) s = some (act b s)) (groups : List β)
    (s : Arrays p) :
    runKernels meaning (groups.mapIdx kernel) s = some (groups.foldl (fun s b => act b s) s) := by
  induction groups generalizing kernel s with
  | nil => rfl
  | cons b groups ih =>
    rw [List.mapIdx_cons, runKernels, h, Option.bind_some, ih fun i => h (i + 1), List.foldl_cons]

/-- What neurons bring to a pass, as one fragment. -/
def body (select : Neuron → Fragment) (ns : List Neuron) : Fragment :=
  ⟨ns.flatMap fun n => (select n).expressions⟩

theorem text_body (select : Neuron → Fragment) (ns : List Neuron) :
    (body select ns).text = TextPieces.concat (ns.map fun n => (select n).text) := by
  induction ns with
  | nil => rfl
  | cons n ns ih =>
    have hb : body select (n :: ns) = (select n).append (body select ns) := by
      simp [body, Fragment.append]
    rw [hb, Fragment.text_append, ih, List.map_cons, TextPieces.concat]

theorem Compositional.body_flatten {meaning : Meaning p} (h : Compositional meaning)
    (select : Neuron → Fragment) (groups : List (List Neuron)) (s : Arrays p) :
    meaning (body select groups.flatten).text s =
      groups.foldl (fun s group => meaning (body select group).text s) s := by
  induction groups generalizing s with
  | nil => exact h.empty s
  | cons group groups ih =>
    have hb : body select (group :: groups).flatten =
        (body select group).append (body select groups.flatten) := by
      simp [body, Fragment.append]
    rw [hb, Fragment.text_append, h.append, ih, List.foldl_cons]

theorem mem_body {select : Neuron → Fragment} {ns : List Neuron} {e : String}
    (h : e ∈ (body select ns).expressions) : ∃ n ∈ ns, e ∈ (select n).expressions :=
  List.mem_flatMap.mp h

/-- Kernels with the same opening and the same ending around their groups do what the opening, all
groups and the ending do. The relation says which states the ending makes equal. -/
theorem Compositional.run_groups {meaning : Meaning p} (h : Compositional meaning)
    {opening ending : Fragment} {select : Neuron → Fragment} {kernel : Nat → List Neuron → Kernel}
    (hk : ∀ i group, (kernel i group).text =
      signature p .openCl (kernel i group).pass (kernel i group).entryPoint
        ++ (opening.text ++ (body select group).text ++ ending.text) ++ closing)
    {groups : List (List Neuron)} {order : List Neuron} (hdiv : Divides groups order)
    (hne : order ≠ []) {R : Arrays p → Arrays p → Prop}
    (settled : ∀ group ∈ groups, ∀ s,
      let t := meaning ending.text (meaning (body select group).text (meaning opening.text s))
      meaning opening.text t = t)
    (left : ∀ s, R (meaning ending.text s) s)
    (step : ∀ group ∈ groups, ∀ s t, R s t →
      R (meaning (body select group).text s) (meaning (body select group).text t))
    (merge : ∀ s t, R s t → meaning ending.text s = meaning ending.text t) (s : Arrays p) :
    runKernels meaning (groups.mapIdx kernel) s =
      some (meaning (opening.text ++ (body select order).text ++ ending.text) s) := by
  have hsplit : ∀ (f : Fragment) s, meaning (opening.text ++ f.text ++ ending.text) s =
      meaning ending.text (meaning f.text (meaning opening.text s)) := fun f s => by
    rw [← Fragment.text_append, h.append, Fragment.text_append, h.append]
  have hone : ∀ i group s, runKernel meaning (kernel i group) s = some (meaning ending.text
      (meaning (body select group).text (meaning opening.text s))) := fun i group s => by
    rw [runKernel_of_layout meaning (hk i group), hsplit]
  obtain ⟨first, rest, rfl⟩ := List.exists_cons_of_ne_nil (mt hdiv.eq_nil_iff.mp hne)
  rw [runKernels_mapIdx hone, hsplit, ← hdiv.flatten_eq, h.body_flatten]
  exact congrArg some (foldl_wrapped first rest settled left step merge s)

/-- Neurons that leave the bound slots alone make a later copying in superfluous. -/
theorem Compositional.settled {meaning : Meaning p} (h : Compositional meaning)
    {writes : List (Nat × Value p)} {enter leave : Arrays p → Arrays p}
    (henter : ∀ s, enter s = { s with memory := storeAll writes s.memory })
    (hleave : ∀ s, (leave s).memory = s.memory) {f : Fragment}
    (hf : ∀ e ∈ f.expressions, Spares meaning (writes.map Prod.fst) e) (s : Arrays p) :
    enter (leave (meaning f.text (enter s))) = leave (meaning f.text (enter s)) := by
  have hkept : storeAll writes (leave (meaning f.text (enter s))).memory =
      (leave (meaning f.text (enter s))).memory := by
    apply storeAll_eq_self s.memory
    intro i hi
    rw [hleave, h.spares hf _ hi, henter]
  rw [henter, hkept]

/-- The states have the same arena, and copying the outputs of `a` out makes them equal. -/
def SameButOutputs (a : Arena p) (s t : Arrays p) : Prop :=
  s.memory = t.memory ∧
    ∀ memory,
      storeAll (outputWrites a memory) s.outputs = storeAll (outputWrites a memory) t.outputs

theorem SameButOutputs.text {a : Arena p} {meaning : Meaning p} (h : Compositional meaning)
    {f : Fragment} (hf : ∀ e ∈ f.expressions, IgnoresOutputs meaning e) {s t : Arrays p}
    (hst : SameButOutputs a s t) : SameButOutputs a (meaning f.text s) (meaning f.text t) := by
  rcases s with ⟨memory, outputs⟩
  rcases t with ⟨memory', outputs'⟩
  obtain rfl : memory = memory' := hst.1
  rw [h.ignoresOutputs hf memory outputs, h.ignoresOutputs hf memory outputs']
  exact ⟨rfl, hst.2⟩

theorem FeedMeaning.run {g : Graph} {a : Arena p} (hg : g.forward ≠ []) {input : Nat → Value p}
    {meaning : Meaning p} (h : FeedMeaning a input meaning)
    (hn : ∀ n ∈ g.forward, ∀ e ∈ n.feed.expressions ++ n.trace.expressions,
      Spares meaning a.inputs e ∧ IgnoresOutputs meaning e) (budget : Nat) (s : Arrays p) :
    runKernels meaning (feedKernels g a budget) s =
      some (meaning (a.inputsFragment.text
        ++ TextPieces.concat (g.forward.map fun n => n.feed.text ++ n.trace.text)
        ++ a.outputsFragment.text) s) := by
  let select : Neuron → Fragment := fun n => n.feed.append n.trace
  have hbody : ∀ ns : List Neuron, TextPieces.concat (ns.map fun n => n.feed.text ++ n.trace.text)
      = (body select ns).text := fun ns => by simp [text_body, select, Fragment.text_append]
  have hdiv := divides_feedGroups g budget
  have hgroup : ∀ group ∈ feedGroups g budget, ∀ e ∈ (body select group).expressions,
      Spares meaning a.inputs e ∧ IgnoresOutputs meaning e := by
    intro group hgroup e he
    obtain ⟨n, hng, hen⟩ := mem_body he
    exact hn n (hdiv.flatten_eq ▸ List.mem_flatten.mpr ⟨group, hgroup, hng⟩) e hen
  rw [feedKernels_eq_mapIdx, hbody]
  refine h.run_groups (R := SameButOutputs a) (fun i group => ?_) hdiv hg ?_ ?_ ?_ ?_ s
  · rw [← hbody]
    rfl
  · intro group hmem s
    refine h.settled h.enter (fun s => by rw [h.leave]) (fun e he => ?_) s
    rw [map_fst_inputWrites]
    exact (hgroup group hmem e he).1
  · intro s
    rw [h.leave]
    exact ⟨rfl, fun memory => storeAll_storeAll (map_fst_outputWrites a memory s.memory) s.outputs⟩
  · intro group hmem s t hst
    exact hst.text h.toCompositional fun e he => (hgroup group hmem e he).2
  · intro s t hst
    rw [h.leave, h.leave, hst.2 s.memory, hst.1]

theorem TrainMeaning.run {g : Graph} {a : Arena p} (hg : g.forward ≠ []) {rate : Value p}
    {target : Nat → Value p} {meaning : Meaning p} (h : TrainMeaning a rate target meaning)
    (hn : ∀ n ∈ g.forward, ∀ e ∈ n.train.expressions,
      Spares meaning (a.rate.toList ++ a.targets) e) (budget : Nat) (s : Arrays p) :
    runKernels meaning (trainKernels g a budget) s =
      some (meaning (a.rateFragment.text ++ a.targetsFragment.text
        ++ TextPieces.concat (g.forward.reverse.map fun n => n.train.text)) s) := by
  have hdiv := divides_trainGroups g budget
  have hend : ∀ s, meaning Fragment.empty.text s = s := h.empty
  have henter : ∀ s, meaning (a.rateFragment.append a.targetsFragment).text s =
      { s with memory := storeAll (trainWrites a rate target) s.memory } := fun s => by
    rw [Fragment.text_append, h.enter]
  rw [trainKernels_eq_mapIdx, ← Fragment.text_append, ← text_body (fun n => n.train),
    ← String.append_empty (s := _ ++ _), ← Fragment.text_empty]
  refine h.run_groups (R := Eq) (fun i group => ?_) hdiv (by simpa using hg) ?_ hend ?_ ?_ s
  · rw [Fragment.text_empty, String.append_empty, Fragment.text_append, text_body]
    rfl
  · intro group hmem s
    refine h.settled henter (fun s => by rw [hend]) (fun e he => ?_) s
    rw [map_fst_trainWrites]
    obtain ⟨n, hng, hen⟩ := mem_body he
    have hf : n ∈ g.forward.reverse := hdiv.flatten_eq ▸ List.mem_flatten.mpr ⟨group, hmem, hng⟩
    exact hn n (List.mem_reverse.mp hf) e hen
  · rintro group - s t rfl
    rfl
  · rintro s t rfl
    rfl

/-- Two inputs bound to one slot, and the learning rate and a target bound to another. -/
def sharedSlots : Arena .double where
  memory := [Value.zero, Value.zero, Value.zero]
  outputs := [Value.zero]
  namedSlots := []
  inputs := [0, 0]
  outputBindings := [1]
  targets := [2]
  rate := some 2

/-- A neuron that copies slots, too large to share a kernel at the least limit. -/
def copies : Neuron where
  feed := ⟨List.replicate 60 "x[1] = x[0]"⟩
  trace := ⟨[]⟩
  train := ⟨List.replicate 60 "x[1] = x[2]"⟩

/-- Two layers of one such neuron. -/
def twoCopies : Graph := ⟨[[copies], [copies]]⟩

/-- What the lines of the kernels of `twoCopies` do to the slots of `sharedSlots`. -/
def copyAct (line : List Char) (s : Arrays .double) : Arrays .double :=
  if line = "x[0] = input[0];".toList then { s with memory := s.memory.set 0 (.infinity false) }
  else if line = "x[0] = input[1];".toList then { s with memory := s.memory.set 0 .nan }
  else if line = "x[2] = rate[0];".toList then { s with memory := s.memory.set 2 (.infinity true) }
  else if line = "x[2] = target[0];".toList then { s with memory := s.memory.set 2 .nan }
  else if line = "output[0] = x[1];".toList then
    { s with outputs := s.outputs.set 0 (s.memory.getD 1 Value.zero) }
  else if line = "x[1] = x[0];".toList then
    { s with memory := s.memory.set 1 (s.memory.getD 0 Value.zero) }
  else if line = "x[1] = x[2];".toList then
    { s with memory := s.memory.set 1 (s.memory.getD 2 Value.zero) }
  else s

theorem feedMeaning_copyAct :
    FeedMeaning sharedSlots (fun k => if k = 0 then .infinity false else .nan)
      (lineMeaning copyAct) where
  toCompositional := compositional_lineMeaning copyAct
  input
    | 0, _, rfl, _ => rfl
    | 1, _, rfl, _ => rfl
  output
    | 0, _, rfl, _ => rfl

theorem trainMeaning_copyAct :
    TrainMeaning sharedSlots (.infinity true) (fun _ => .nan) (lineMeaning copyAct) where
  toCompositional := compositional_lineMeaning copyAct
  rate
    | _, rfl, _ => rfl
  target
    | 0, _, rfl, _ => rfl

theorem spares_copies_feed {n : Neuron} (hn : n ∈ twoCopies.forward) {e : String}
    (he : e ∈ n.feed.expressions ++ n.trace.expressions) :
    Spares (lineMeaning copyAct) sharedSlots.inputs e ∧ IgnoresOutputs (lineMeaning copyAct) e := by
  obtain rfl : n = copies := by simpa [twoCopies, Graph.forward] using hn
  obtain rfl : e = "x[1] = x[0]" := by simpa [copies] using he
  refine ⟨fun s slot hs => ?_, fun memory outputs => rfl⟩
  obtain rfl : slot = 0 := by simpa [sharedSlots] using hs
  exact List.getElem?_set_ne (by decide)

theorem spares_copies_train {n : Neuron} (hn : n ∈ twoCopies.forward) {e : String}
    (he : e ∈ n.train.expressions) :
    Spares (lineMeaning copyAct) (sharedSlots.rate.toList ++ sharedSlots.targets) e := by
  obtain rfl : n = copies := by simpa [twoCopies, Graph.forward] using hn
  obtain rfl : e = "x[1] = x[2]" := List.eq_of_mem_replicate he
  intro s slot hs
  obtain rfl : slot = 2 := by simpa [sharedSlots] using hs
  exact List.getElem?_set_ne (by decide)

/-- However neurons are packed, the kernels of a pass do what one pass over all neurons does. For
the forward pass no neuron may write a slot that an input is bound to, nor touch the outputs; for
the training pass none may write the slots of the learning rate and the targets. -/
theorem packing_preserves_meaning (g : Graph) (a : Arena p) (hg : g.neuronCount ≠ 0) :
    (∀ (input : Nat → Value p) (meaning : Meaning p), FeedMeaning a input meaning →
      (∀ n ∈ g.forward, ∀ e ∈ n.feed.expressions ++ n.trace.expressions,
        Spares meaning a.inputs e ∧ IgnoresOutputs meaning e) →
      ∀ (budget other : Nat) (s : Arrays p),
        runKernels meaning (feedKernels g a budget) s =
          some (meaning (a.inputsFragment.text
            ++ TextPieces.concat (g.forward.map fun n => n.feed.text ++ n.trace.text)
            ++ a.outputsFragment.text) s) ∧
        runKernels meaning (feedKernels g a budget) s =
          runKernels meaning (feedKernels g a other) s) ∧
    (∀ (rate : Value p) (target : Nat → Value p) (meaning : Meaning p),
      TrainMeaning a rate target meaning →
      (∀ n ∈ g.forward, ∀ e ∈ n.train.expressions,
        Spares meaning (a.rate.toList ++ a.targets) e) →
      ∀ (budget other : Nat) (s : Arrays p),
        runKernels meaning (trainKernels g a budget) s =
          some (meaning (a.rateFragment.text ++ a.targetsFragment.text
            ++ TextPieces.concat (g.forward.reverse.map fun n => n.train.text)) s) ∧
        runKernels meaning (trainKernels g a budget) s =
          runKernels meaning (trainKernels g a other) s) := by
  have hf : g.forward ≠ [] := by
    rwa [Graph.neuronCount_eq_length, ne_eq, List.length_eq_zero_iff] at hg
  refine ⟨fun input meaning h hn budget other s => ?_,
    fun rate target meaning h hn budget other s => ?_⟩
  · exact ⟨h.run hf hn budget s, (h.run hf hn budget s).trans (h.run hf hn other s).symm⟩
  · exact ⟨h.run hf hn budget s, (h.run hf hn budget s).trans (h.run hf hn other s).symm⟩

/-- Two kernels for each pass do what one kernel for each does, though they share slots. -/
theorem packing_twoCopies :
    twoCopies.neuronCount ≠ 0 ∧
    (feedKernels twoCopies sharedSlots 0).length = 2 ∧
    (feedKernels twoCopies sharedSlots 1000).length = 1 ∧
    runKernels (lineMeaning copyAct) (feedKernels twoCopies sharedSlots 0)
        ⟨sharedSlots.memory, sharedSlots.outputs⟩ =
      runKernels (lineMeaning copyAct) (feedKernels twoCopies sharedSlots 1000)
        ⟨sharedSlots.memory, sharedSlots.outputs⟩ ∧
    (trainKernels twoCopies sharedSlots 0).length = 2 ∧
    (trainKernels twoCopies sharedSlots 1000).length = 1 ∧
    runKernels (lineMeaning copyAct) (trainKernels twoCopies sharedSlots 0)
        ⟨sharedSlots.memory, sharedSlots.outputs⟩ =
      runKernels (lineMeaning copyAct) (trainKernels twoCopies sharedSlots 1000)
        ⟨sharedSlots.memory, sharedSlots.outputs⟩ := by
  have hn : twoCopies.neuronCount ≠ 0 := by decide
  obtain ⟨hfeed, htrain⟩ := packing_preserves_meaning twoCopies sharedSlots hn
  obtain ⟨-, feed⟩ := hfeed _ _ feedMeaning_copyAct (fun _ hn _ he => spares_copies_feed hn he)
    0 1000 ⟨sharedSlots.memory, sharedSlots.outputs⟩
  obtain ⟨-, train⟩ := htrain _ _ _ trainMeaning_copyAct
    (fun _ hn _ he => spares_copies_train hn he) 0 1000 ⟨sharedSlots.memory, sharedSlots.outputs⟩
  exact ⟨hn, by rfl, by rfl, feed, by rfl, by rfl, train⟩

end NeuronKernels.KernelMeaning
