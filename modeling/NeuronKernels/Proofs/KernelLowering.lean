import NeuronKernels.Proofs.StoredNetworks

/-!
# Kernels in the second dialect

A draft is respelled chunk by chunk, and a sealed kernel as one text, because its chunks can no
longer be told apart. Both give the same: a chunk of statements ends behind a line break, so no word
goes on from one chunk into the next (`respell_append`). The lemmas say this for texts, then for the
chunks that calls put into a draft (`separate_drafted`), and from there for sealed kernels.
-/

namespace NeuronKernels.KernelLowering
open BinaryFloat KernelAssembly KernelLayout KernelNetwork KernelUnit MemoryArena NeuronGraph
open StatementFragment StoredNetwork StoredNetworks TextPieces

variable {p : Precision} {δ ε : Type}

/-- The text does not end inside a word. -/
def EndsWord (text : List Char) : Prop := ∀ c ∈ text.getLast?, isWordChar c = false

theorem endsWord_append {a b : List Char} (ha : EndsWord a) (hb : EndsWord b) :
    EndsWord (a ++ b) := by
  cases b with
  | nil => simpa using ha
  | cons c b =>
    intro d hd
    rw [List.getLast?_append_of_ne_nil a (List.cons_ne_nil c b)] at hd
    exact hb d hd

theorem endsWord_tail {c : Char} {cs : List Char} (h : EndsWord (c :: cs)) : EndsWord cs := by
  cases cs with
  | nil => simp [EndsWord]
  | cons d cs => simpa [EndsWord, List.getLast?_cons_cons] using h

/-- The first text is read to its end before the second one begins, with the letters in `word` in
front of it. -/
theorem respellFrom_append {a : List Char} (ha : EndsWord a) {word : List Char}
    (hw : a = [] → word = []) (b : List Char) :
    respellFrom word (a ++ b) = respellFrom word a ++ respell b := by
  induction a generalizing word with
  | nil =>
    rw [hw rfl]
    rfl
  | cons c cs ih =>
    have htail := endsWord_tail ha
    rw [List.cons_append, respellFrom, respellFrom]
    by_cases hc : isWordChar c = true
    · -- a letter of a word is not the last character
      have hmore : cs ≠ [] := by
        rintro rfl
        have hlast := ha c (by simp)
        rw [hc] at hlast
        cases hlast
      rw [if_pos hc, if_pos hc, ih htail fun h => absurd h hmore]
    · rw [if_neg hc, if_neg hc, ih htail fun _ => rfl, List.append_assoc, List.cons_append]

theorem respell_append {a : List Char} (ha : EndsWord a) (b : List Char) :
    respell (a ++ b) = respell a ++ respell b :=
  respellFrom_append ha (fun _ => rfl) b

/-- Without the line break between them two chunks may make up a word that neither of them holds. -/
example : respell "tar".toList ++ respell "get".toList = "target".toList ∧
    respell ("tar" ++ "get").toList = "target_values".toList := by decide

theorem endsWord_statement (e : String) : EndsWord (statement e).toList := by
  intro c hc
  have hlast : (statement e).toList.getLast? = some '\n' := by
    simp [statement]
  rw [hlast] at hc
  obtain rfl := Option.some.inj hc
  decide

theorem endsWord_concat {texts : List String} (h : ∀ t ∈ texts, EndsWord t.toList) :
    EndsWord (concat texts).toList := by
  induction texts with
  | nil => simp [concat, EndsWord]
  | cons t texts ih =>
    rw [concat, String.toList_append]
    exact endsWord_append (h t (by simp)) (ih fun u hu => h u (by simp [hu]))

theorem endsWord_text (f : Fragment) : EndsWord f.text.toList := by
  apply endsWord_concat
  intro t ht
  obtain ⟨e, -, rfl⟩ := List.mem_map.mp ht
  exact endsWord_statement e

theorem lower_empty (dialect : Dialect) : dialect.lower "" = "" := by
  cases dialect with
  | openCl => rfl
  | wgsl => decide

theorem lower_append (dialect : Dialect) {s : String} (hs : EndsWord s.toList) (t : String) :
    dialect.lower (s ++ t) = dialect.lower s ++ dialect.lower t := by
  cases dialect with
  | openCl => rfl
  | wgsl =>
    simp only [Dialect.lower, String.toList_append, respell_append hs, String.ofList_append]

/-- Chunks that end between words are lowered one by one or all at once. -/
theorem lower_concat (dialect : Dialect) {texts : List String}
    (h : ∀ t ∈ texts, EndsWord t.toList) :
    dialect.lower (concat texts) = concat (texts.map dialect.lower) := by
  induction texts with
  | nil => exact lower_empty dialect
  | cons t texts ih =>
    have hrest := ih fun u hu => h u (by simp [hu])
    rw [concat, lower_append dialect (h t (by simp)), hrest, List.map_cons, concat]

/-- The source is read as a draft that is written like `d` in every dialect. -/
def Lowers (p : Precision) (source : Source) (d : Draft) : Prop :=
  ∃ parsed, Draft.ofSource p source = some parsed ∧
    ∀ dialect, parsed.render p dialect = d.render p dialect

/-- All chunks of a draft end between words. -/
def Separate (d : Draft) : Prop := ∀ t ∈ d.statements, EndsWord t.toList

theorem render_body (pass : Pass) (entryPoint : String) (body : List String) (dialect : Dialect) :
    ({ Draft.start pass entryPoint with body := body } : Draft).render p dialect =
      signature p dialect pass entryPoint ++ concat (body.map dialect.lower) ++ closing := by
  simp [Draft.render, Draft.statements, Draft.start]

theorem Separate.lowers {d : Draft} (h : Separate d) : Lowers p (d.toKernel p).source d := by
  have hread := Draft.ofSource_layout p d.pass d.entryPoint (concat d.statements)
  have hsource : (d.toKernel p).source = ⟨d.pass, d.entryPoint,
      signature p .openCl d.pass d.entryPoint ++ concat d.statements ++ closing⟩ := by
    rw [Draft.toKernel, KernelGroups.render_openCl]
    rfl
  refine ⟨_, hsource ▸ hread, fun dialect => ?_⟩
  -- all statements are one chunk now, or none if there is nothing in them
  have hchunk : concat ((if (concat d.statements).isEmpty then [] else [concat d.statements]).map
      dialect.lower) = dialect.lower (concat d.statements) := by
    split
    · next hempty =>
      rw [String.isEmpty_iff.mp hempty, lower_empty]
      rfl
    · simp [concat]
  rw [render_body, hchunk, lower_concat dialect h]
  rfl

/-- A call that fills a draft. The statements of a neuron are the texts of fragments. -/
inductive Call
  | prologue (f : Fragment)
  | neuron (fs : List Fragment) (expressions : Nat)
  | epilogue (f : Fragment)

def Call.after : Call → Draft → Draft
  | .prologue f, d => d.pushPrologue f
  | .neuron fs expressions, d => d.pushNeuron (concat (fs.map Fragment.text)) expressions
  | .epilogue f, d => d.pushEpilogue f

def drafted (pass : Pass) (entryPoint : String) (calls : List Call) : Draft :=
  calls.foldl (fun d c => c.after d) (Draft.start pass entryPoint)

theorem endsWord_chunks {f : Fragment} {t : String} (h : t ∈ Draft.chunks f) :
    EndsWord t.toList := by
  unfold Draft.chunks at h
  split at h
  · cases h
  · obtain rfl := List.mem_singleton.mp h
    exact endsWord_text f

theorem Separate.after {d : Draft} (h : Separate d) (c : Call) : Separate (c.after d) := by
  intro t ht
  have hold : t ∈ d.prologue ∨ t ∈ d.body ∨ t ∈ d.epilogue → EndsWord t.toList := by
    intro hmem
    exact h t (by simpa [Draft.statements] using hmem)
  cases c with
  | prologue f =>
    simp only [Call.after, Draft.pushPrologue, Draft.statements, List.mem_append] at ht
    obtain ((ht | ht) | ht) | ht := ht
    · exact hold (.inl ht)
    · exact endsWord_chunks ht
    · exact hold (.inr (.inl ht))
    · exact hold (.inr (.inr ht))
  | neuron fs expressions =>
    simp only [Call.after, Draft.pushNeuron, Draft.statements, List.mem_append,
      List.mem_singleton] at ht
    obtain (ht | ht | rfl) | ht := ht
    · exact hold (.inl ht)
    · exact hold (.inr (.inl ht))
    · apply endsWord_concat
      intro u hu
      obtain ⟨f, -, rfl⟩ := List.mem_map.mp hu
      exact endsWord_text f
    · exact hold (.inr (.inr ht))
  | epilogue f =>
    simp only [Call.after, Draft.pushEpilogue, Draft.statements, List.mem_append] at ht
    obtain (ht | ht) | ht | ht := ht
    · exact hold (.inl ht)
    · exact hold (.inr (.inl ht))
    · exact hold (.inr (.inr ht))
    · exact endsWord_chunks ht

theorem separate_foldl {d : Draft} (h : Separate d) (calls : List Call) :
    Separate (calls.foldl (fun d c => c.after d) d) := by
  induction calls generalizing d with
  | nil => exact h
  | cons c calls ih => exact ih (h.after c)

theorem separate_drafted (pass : Pass) (entryPoint : String) (calls : List Call) :
    Separate (drafted pass entryPoint calls) := by
  apply separate_foldl
  intro t ht
  cases ht

def neuronCalls (fragments : Neuron → List Fragment) (size : Neuron → Nat) (ns : List Neuron) :
    List Call :=
  ns.map fun n => .neuron (fragments n) (size n)

theorem pushNeurons_eq_foldl {text : Neuron → String} {fragments : Neuron → List Fragment}
    (ht : ∀ n, text n = concat ((fragments n).map Fragment.text)) (size : Neuron → Nat)
    (d : Draft) (ns : List Neuron) :
    pushNeurons text size d ns =
      (neuronCalls fragments size ns).foldl (fun d c => c.after d) d := by
  simp only [pushNeurons, neuronCalls, List.foldl_map, Call.after, ht]

theorem feedDraft_eq_drafted (a : Arena p) (position : Nat) (group : List Neuron) :
    feedDraft a position group = drafted .feed (Pass.feed.entryPoint position)
      (.prologue a.inputsFragment ::
        neuronCalls (fun n => [n.feed, n.trace]) Neuron.feedSize group ++
          [.epilogue a.outputsFragment]) := by
  have htext : ∀ n : Neuron, n.feedText = concat ([n.feed, n.trace].map Fragment.text) := by
    intro n
    simp [Neuron.feedText, concat]
  rw [feedDraft, pushNeurons_eq_foldl htext]
  simp [drafted, Call.after]

theorem trainDraft_eq_drafted (a : Arena p) (position : Nat) (group : List Neuron) :
    trainDraft a position group = drafted .train (Pass.train.entryPoint position)
      (.prologue a.rateFragment :: .prologue a.targetsFragment ::
        neuronCalls (fun n => [n.train]) Neuron.trainSize group) := by
  have htext : ∀ n : Neuron, n.trainText = concat ([n.train].map Fragment.text) := by
    intro n
    simp [Neuron.trainText, concat]
  rw [trainDraft, pushNeurons_eq_foldl htext]
  rfl

def draftsOf (g : Graph) (a : Arena p) (budget : Nat) : Pass → List Draft
  | .feed => feedDrafts g a budget
  | .train => trainDrafts g a budget

theorem separate_of_mem_drafts {g : Graph} {a : Arena p} {budget : Nat} {pass : Pass} {d : Draft}
    (h : d ∈ draftsOf g a budget pass) : Separate d := by
  cases pass with
  | feed =>
    obtain ⟨i, hi, rfl⟩ := List.mem_mapIdx.mp h
    rw [feedDraft_eq_drafted]
    exact separate_drafted _ _ _
  | train =>
    obtain ⟨i, hi, rfl⟩ := List.mem_mapIdx.mp h
    rw [trainDraft_eq_drafted]
    exact separate_drafted _ _ _

/-- Every kernel of either pass lowers to what its draft in the same place is written as. -/
def LowersAs (n : Network p δ) (drafts : Pass → List Draft) : Prop :=
  ∀ pass, List.Forall₂ (fun k d => Lowers p k.source d) (n.kernelsOf pass) (drafts pass)

theorem lowersAs_ofGraph (g : Graph) (a : Arena p) (budget : Nat) :
    LowersAs (Network.ofGraph a g budget : Network p δ) (draftsOf g a budget) := by
  intro pass
  have hkernels : (Network.ofGraph a g budget : Network p δ).kernelsOf pass =
      (draftsOf g a budget pass).map (Draft.toKernel p) := by
    cases pass <;> rfl
  rw [hkernels, List.forall₂_map_left_iff, List.forall₂_same]
  exact fun d hd => (separate_of_mem_drafts hd).lowers

/-- What a network lowers to does not depend on handles. -/
theorem LowersAs.of_unbind {n : Network p δ} {m : Network p ε} {drafts : Pass → List Draft}
    (h : LowersAs n drafts) (hm : ∀ pass, m.kernelsOf pass = (n.kernelsOf pass).map Kernel.unbind) :
    LowersAs m drafts := by
  intro pass
  rw [hm pass, List.forall₂_map_left_iff]
  exact h pass

/-- A sealed kernel is read back, and what is read is written in both dialects like the draft that
was sealed. This holds for the kernels of every assembled network, and for those of a network that
loads them, as a record or as a text. -/
theorem kernels_lower (p : Precision) :
    (∀ pass entryPoint calls, Lowers p ((drafted pass entryPoint calls).toKernel p).source
      (drafted pass entryPoint calls)) ∧
    ∀ (g : Graph) (a : Arena p) (budget : Nat),
      let n : Network p δ := .ofGraph a g budget
      LowersAs n (draftsOf g a budget) ∧
      ∀ m : Network p ε, LowersAs (m.loadRecord n.toRecord) (draftsOf g a budget) ∧
        (CountsFit n.toRecord → (m.loadText n.toRecord.text).result = .ok () ∧
          LowersAs (m.loadText n.toRecord.text).network (draftsOf g a budget)) := by
  refine ⟨fun pass entryPoint calls => (separate_drafted pass entryPoint calls).lowers,
    fun g a budget => ?_⟩
  intro n
  have hn : LowersAs n (draftsOf g a budget) := lowersAs_ofGraph g a budget
  have hpass : InPass n := inPass_ofGraph a g budget
  refine ⟨hn, fun m => ⟨?_, fun hc => ?_⟩⟩
  · apply hn.of_unbind
    intro pass
    rw [loadRecord_toRecord hpass m]
    cases pass <;> rfl
  · have hload := restores_loadText hpass hc m
    refine ⟨hload.result, hn.of_unbind fun pass => ?_⟩
    rw [hload.network]
    cases pass <;> rfl

/-- A neuron whose training statements have the reserved word alone, in a longer word, and next to
letters that do not belong to words. -/
def targetGraph : Graph :=
  ⟨[[⟨⟨["x[1] = x[0]"]⟩, ⟨[]⟩, ⟨["x[1] = my_target", "é target", "target"]⟩⟩]]⟩

def targetArena : Arena .single := { (Arena.empty : Arena .single) with
  memory := [Value.zero, Value.zero], targets := [1] }

theorem kernels_lower_targetGraph :
    let n : Network .single ComputeDevice.Portable := .ofGraph targetArena targetGraph 0
    let m : Network .single ComputeDevice.Portable := .ofArena Arena.empty
    CountsFit n.toRecord ∧
      LowersAs (m.loadText n.toRecord.text).network (draftsOf targetGraph targetArena 0) ∧
      (draftsOf targetGraph targetArena 0 .train).map (fun d => d.render .single .wgsl) =
        ["@compute @workgroup_size(1)\nfn train_0() \x7b\nx[1] = target_values[0];\n" ++
          "x[1] = my_target;\né target_values;\ntarget_values;\n\x7d\n"] := by
  intro n m
  have hfits : CountsFit n.toRecord := by
    unfold CountsFit
    decide +kernel
  obtain ⟨-, hloads⟩ := (kernels_lower (δ := ComputeDevice.Portable)
    (ε := ComputeDevice.Portable) .single).2 targetGraph targetArena 0
  exact ⟨hfits, ((hloads m).2 hfits).2, by decide +kernel⟩

end NeuronKernels.KernelLowering
