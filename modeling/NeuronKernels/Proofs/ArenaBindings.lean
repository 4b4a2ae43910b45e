import Mathlib.Data.List.Basic
import NeuronKernels.Proofs.JsonInvariants
import NeuronKernels.Proofs.JsonRoundTrip
import NeuronKernels.Proofs.NetworkRuns

/-!
# Bindings of an arena

Everything that an arena binds is a slot of it, and there is one output for each output binding
(`Sound`). New arenas and arenas from snapshots are sound (`Begun.sound`), every change keeps them
so (`sound_after`), and no change takes a slot or an output away (`grows_after`), so a statement
that copies between an argument and its slot stays within both arrays for good. Passes, and edits of
values, only ever write values over others (`Rewritten`), which carries the three facts at once.

A call that names a slot is taken apart into its check and its writes (`perform`): nothing has been
written yet when the check fails.
-/

namespace NeuronKernels.ArenaBindings
open ArenaSnapshot BinaryFloat ComputeDevice FileTree JsonInvariants JsonReading JsonRoundTrip
open KernelNetwork MemoryArena NetworkErrors NetworkFiles NetworkRuns SimulatedDevice TextPieces

variable {p : Precision} {δ : Type}

/-- Everything that is bound is a slot, and every output binding has its output. -/
structure Sound (a : Arena p) : Prop where
  slots : ∀ index ∈ boundSlots a, index < a.memory.length
  outputs : a.outputs.length = a.outputBindings.length

/-- Every name is listed once. -/
def ListedOnce (entries : List (String × Nat)) : Prop := (entries.map Prod.fst).Nodup

/-- No named slot is listed twice. -/
def NamesOnce (a : Arena p) : Prop := ListedOnce a.namedSlots

/-- The second arena has all slots and outputs of the first. -/
structure Grows (a b : Arena p) : Prop where
  memory : a.memory.length ≤ b.memory.length
  outputs : a.outputs.length ≤ b.outputs.length

theorem Grows.refl (a : Arena p) : Grows a a := ⟨Nat.le_refl _, Nat.le_refl _⟩

theorem Grows.trans {a b c : Arena p} (h : Grows a b) (h' : Grows b c) : Grows a c :=
  ⟨Nat.le_trans h.memory h'.memory, Nat.le_trans h.outputs h'.outputs⟩

/-- The second arena is the first with other values in the same slots and outputs. -/
structure Rewritten (a b : Arena p) : Prop where
  values : b = { a with memory := b.memory, outputs := b.outputs }
  memory : b.memory.length = a.memory.length
  outputs : b.outputs.length = a.outputs.length

theorem Rewritten.refl (a : Arena p) : Rewritten a a := ⟨rfl, rfl, rfl⟩

theorem Rewritten.trans {a b c : Arena p} (h : Rewritten a b) (h' : Rewritten b c) :
    Rewritten a c where
  values := by
    rw [h'.values, h.values]
  memory := h'.memory.trans h.memory
  outputs := h'.outputs.trans h.outputs

theorem Rewritten.grows {a b : Arena p} (h : Rewritten a b) : Grows a b :=
  ⟨Nat.le_of_eq h.memory.symm, Nat.le_of_eq h.outputs.symm⟩

theorem Rewritten.boundSlots {a b : Arena p} (h : Rewritten a b) : boundSlots b = boundSlots a := by
  rw [h.values]
  rfl

theorem Rewritten.sound {a b : Arena p} (h : Rewritten a b) (ha : Sound a) : Sound b where
  slots index hi := by
    rw [h.memory]
    exact ha.slots index (h.boundSlots ▸ hi)
  outputs := by
    have hbindings : b.outputBindings = a.outputBindings := by rw [h.values]
    rw [h.outputs, hbindings, ha.outputs]

theorem Rewritten.namesOnce {a b : Arena p} (h : Rewritten a b) (ha : NamesOnce a) :
    NamesOnce b := by
  rw [h.values]
  exact ha

theorem rewritten_fillOutputs (a : Arena p) (v : Value p) : Rewritten a (a.fillOutputs v) :=
  ⟨rfl, rfl, List.length_map _⟩

theorem rewritten_overwriteMemory (a : Arena p) (source : List (Value p)) :
    Rewritten a (a.overwriteMemory source) :=
  ⟨rfl, Arena.length_overlay source a.memory, rfl⟩

theorem rewritten_overwriteOutputs (a : Arena p) (source : List (Value p)) :
    Rewritten a (a.overwriteOutputs source) :=
  ⟨rfl, rfl, Arena.length_overlay source a.outputs⟩

theorem sound_empty : Sound (Arena.empty : Arena p) := ⟨fun _ hi => (List.not_mem_nil hi).elim, rfl⟩

/-- Arenas with more slots and other bindings of existing slots are sound. -/
theorem sound_of_grows {a b : Arena p} (ha : Sound a) (hg : Grows a b)
    (hb : ∀ index ∈ boundSlots b, index ∈ boundSlots a ∨ index < b.memory.length)
    (ho : b.outputs.length = b.outputBindings.length) : Sound b where
  slots index hi := by
    obtain hold | hnew := hb index hi
    · exact Nat.lt_of_lt_of_le (ha.slots index hold) hg.memory
    · exact hnew
  outputs := ho

/-- A call that is given the index of a slot. -/
inductive Call (p : Precision)
  | setValue (value : Value p)
  | registerInput
  | registerOutput
  | registerTarget
  | setRate

namespace Call

def outcome (c : Call p) (index : Nat) (a : Arena p) : Except ArenaError (Arena p) :=
  match c with
  | .setValue value => a.setValue index value
  | .registerInput => a.registerInput index
  | .registerOutput => a.registerOutput index
  | .registerTarget => a.registerTarget index
  | .setRate => a.setRate index

/-- The writes of a call in their order. A new output binding is there before its output is. -/
def writes (c : Call p) (index : Nat) : List (Arena p → Arena p) :=
  match c with
  | .setValue value => [fun a => { a with memory := a.memory.set index value }]
  | .registerInput => [fun a => { a with inputs := a.inputs ++ [index] }]
  | .registerOutput =>
    [fun a => { a with outputBindings := a.outputBindings ++ [index] },
     fun a => { a with outputs := a.outputs ++ [Value.zero] }]
  | .registerTarget => [fun a => { a with targets := a.targets ++ [index] }]
  | .setRate => [fun a => { a with rate := some index }]

/-- The arena after all writes of a call. -/
def written (c : Call p) (index : Nat) (a : Arena p) : Arena p :=
  (c.writes index).foldl (fun a write => write a) a

/-- A call in place: first the check of the index, then the writes, one after the other. -/
def perform (c : Call p) (index : Nat) (a : Arena p) : Except ArenaError Unit × Arena p :=
  andThen (a.checkIndex index, a) id fun _ a => (.ok (), c.written index a)

theorem checkIndex_eq_error {a : Arena p} {index : Nat} {e : ArenaError}
    (h : a.checkIndex index = .error e) :
    a.memory.length ≤ index ∧ e = .indexOutOfBounds index a.memory.length := by
  unfold Arena.checkIndex at h
  split at h
  · cases h
  · next hi =>
    cases h
    exact ⟨Nat.le_of_not_lt hi, rfl⟩

theorem checkIndex_eq_ok {a : Arena p} {index : Nat} :
    a.checkIndex index = .ok () ↔ index < a.memory.length := by
  unfold Arena.checkIndex
  split
  · next hi => exact ⟨fun _ => hi, fun _ => rfl⟩
  · next hi => exact ⟨nofun, fun h => absurd h hi⟩

/-- Every call is its check and, behind it, all of its writes. -/
theorem outcome_eq (c : Call p) (index : Nat) (a : Arena p) :
    c.outcome index a = (a.checkIndex index).map fun _ => c.written index a := by
  cases c <;> rfl

theorem perform_of_ok {c : Call p} {index : Nat} {a b : Arena p} (h : c.outcome index a = .ok b) :
    index < a.memory.length ∧ c.perform index a = (.ok (), b) := by
  rw [outcome_eq] at h
  cases hcheck : a.checkIndex index with
  | error e =>
    rw [hcheck] at h
    cases h
  | ok =>
    rw [hcheck] at h
    cases h
    rw [perform, hcheck]
    exact ⟨checkIndex_eq_ok.mp hcheck, rfl⟩

theorem perform_of_error {c : Call p} {index : Nat} {a : Arena p} {e : ArenaError}
    (h : c.outcome index a = .error e) :
    a.memory.length ≤ index ∧ e = .indexOutOfBounds index a.memory.length ∧
      c.perform index a = (.error e, a) := by
  rw [outcome_eq] at h
  cases hcheck : a.checkIndex index with
  | error e' =>
    rw [hcheck] at h
    cases h
    obtain ⟨hi, he⟩ := checkIndex_eq_error hcheck
    rw [perform, hcheck]
    exact ⟨hi, he, rfl⟩
  | ok =>
    rw [hcheck] at h
    cases h

/-- A call fails and leaves the arena, or names a slot and does all of its writes. -/
theorem perform_cases (c : Call p) (index : Nat) (a : Arena p) :
    (c.perform index a).2 = a ∨
      index < a.memory.length ∧ (c.perform index a).2 = c.written index a := by
  rw [perform]
  cases hcheck : a.checkIndex index with
  | error e => exact .inl rfl
  | ok => exact .inr ⟨checkIndex_eq_ok.mp hcheck, rfl⟩

end Call

section
variable [Device p δ]

theorem rewritten_fetchOutputs (n : Network p δ) :
    Rewritten n.arena n.fetchOutputs.2.arena := by
  rcases hr : n.fetchOutputs with ⟨result, m⟩
  obtain ⟨found, d, -, rfl⟩ := of_fetchOutputs_eq hr
  exact rewritten_overwriteOutputs n.arena found

theorem rewritten_fetchMemory (n : Network p δ) :
    Rewritten n.arena n.fetchMemory.2.arena := by
  rcases hr : n.fetchMemory with ⟨result, m⟩
  obtain ⟨found, d, -, rfl⟩ := of_fetchMemory_eq hr
  exact rewritten_overwriteMemory n.arena found

theorem rewritten_executeFeed (n : Network p δ) (inputs : List (Value p)) :
    Rewritten n.arena (n.executeFeed inputs).2.arena := by
  have hcleared : ∀ d, Rewritten n.arena (onto (cleared n) d).arena := fun _ =>
    rewritten_fillOutputs n.arena Value.zero
  rw [executeFeed_eq]
  refine andThen_keeps (P := fun _ => True)
    (Q := fun (m : Network p δ) => Rewritten n.arena m.arena) trivial
    (fun d _ => hcleared d) fun _ d _ => ?_
  refine andThen_keeps (P := fun (m : Network p δ) => Rewritten n.arena m.arena)
    (Q := fun (m : Network p δ) => Rewritten n.arena m.arena)
    ((hcleared d).trans (rewritten_fetchOutputs _)) (fun _ hm => hm) fun _ m hm => ?_
  exact andThen_keeps (P := fun (m : Network p δ) => Rewritten n.arena m.arena)
    (Q := fun (m : Network p δ) => Rewritten n.arena m.arena)
    (hm.trans (rewritten_fetchMemory m)) (fun _ hm => hm) fun _ _ hm => hm

theorem rewritten_executeTrain (n : Network p δ) (rate : Value p) (targets : List (Value p)) :
    Rewritten n.arena (n.executeTrain rate targets).2.arena := by
  rw [executeTrain_eq]
  exact andThen_keeps (P := fun _ => True)
    (Q := fun (m : Network p δ) => Rewritten n.arena m.arena) trivial
    (fun _ _ => .refl _) fun _ d _ => rewritten_fetchMemory (onto n d)

/-- A forward pass, whatever the kernels and the device do, writes over values only. -/
theorem rewritten_feed (n : Network p δ) (inputs : List (Value p)) :
    Rewritten n.arena (n.feed inputs).network.arena := by
  cases hx : n.isExecutable .feed with
  | false =>
    rw [(feed_idle hx inputs).2]
    exact .refl _
  | true =>
    rw [(feed_executed hx inputs).2]
    exact rewritten_executeFeed n inputs

theorem rewritten_train (n : Network p δ) (rate : Value p) (targets : List (Value p)) :
    Rewritten n.arena (n.train rate targets).network.arena := by
  cases hx : n.isExecutable .train with
  | false =>
    rw [(train_idle hx rate targets).2]
    exact .refl _
  | true =>
    rw [(train_executed hx rate targets).2]
    exact rewritten_executeTrain n rate targets

end

theorem checkSlots_eq_ok {a : Arena p} {slots : List Nat} :
    checkSlots a slots = .ok () ↔ ∀ index ∈ slots, index < a.memory.length := by
  induction slots with
  | nil => simp [checkSlots]
  | cons index slots ih =>
    rw [checkSlots, List.forall_mem_cons]
    cases hcheck : a.checkIndex index with
    | error e =>
      have hi := (Call.checkIndex_eq_error hcheck).1
      simp only [reduceCtorEq, false_iff, not_and]
      exact fun hlt => absurd hlt (Nat.not_lt.mpr hi)
    | ok =>
      have hi := Call.checkIndex_eq_ok.mp hcheck
      simp only [ih, hi, true_and]

theorem check_eq_ok {a b : Arena p} : check a = .ok b ↔ b = a ∧ Sound a := by
  rw [check]
  cases hslots : checkSlots a (boundSlots a) with
  | error e =>
    have hbad : ¬ ∀ index ∈ boundSlots a, index < a.memory.length := by
      intro h
      rw [checkSlots_eq_ok.mpr h] at hslots
      cases hslots
    simp only [reduceCtorEq, false_iff, not_and]
    exact fun _ h => hbad h.slots
  | ok =>
    have hgood := checkSlots_eq_ok.mp hslots
    by_cases ho : a.outputs.length = a.outputBindings.length
    · simp only [ho, if_true, Except.ok.injEq]
      exact ⟨fun h => ⟨h.symm, hgood, ho⟩, fun h => h.1.symm⟩
    · simp only [ho, if_false, reduceCtorEq, false_iff, not_and]
      exact fun _ h => ho h.outputs

/-- A snapshot gives an arena exactly when the text can be read and what was read is sound. -/
theorem ofText_eq_ok {text : String} {a : Arena p} :
    ofText p text = .ok a ↔ readDocument ((shape p).reader Arena.empty) text = .ok a ∧ Sound a := by
  rw [ofText]
  cases hread : readDocument ((shape p).reader Arena.empty) text with
  | error problem => simp
  | ok b =>
    simp only [check_eq_ok, Except.ok.injEq]
    constructor
    · rintro ⟨rfl, h⟩
      exact ⟨rfl, h⟩
    · rintro ⟨rfl, h⟩
      exact ⟨rfl, h⟩

theorem mem_putName {name : String} {index : Nat} {entries : List (String × Nat)}
    {entry : String × Nat} (h : entry ∈ putName name index entries) :
    entry = (name, index) ∨ entry ∈ entries := by
  induction entries with
  | nil => exact .inl (List.mem_singleton.mp h)
  | cons first rest ih =>
    rw [putName] at h
    split at h
    · obtain rfl | h := List.mem_cons.mp h
      · exact .inl rfl
      · exact .inr (List.mem_cons_of_mem _ h)
    · obtain rfl | h := List.mem_cons.mp h
      · exact .inr List.mem_cons_self
      · exact (ih h).imp id (List.mem_cons_of_mem _)

theorem names_putName (name : String) (index : Nat) (entries : List (String × Nat)) :
    (putName name index entries).map Prod.fst =
      if name ∈ entries.map Prod.fst then entries.map Prod.fst
      else entries.map Prod.fst ++ [name] := by
  induction entries with
  | nil => rfl
  | cons entry rest ih =>
    rw [putName]
    by_cases he : entry.1 = name
    · subst he
      simp
    · rw [if_neg he, List.map_cons, ih]
      have hmem : name ∈ (entry :: rest).map Prod.fst ↔ name ∈ rest.map Prod.fst := by
        simp only [List.map_cons, List.mem_cons, Ne.symm he, false_or]
      simp only [hmem]
      split
      · rfl
      · rfl

theorem listedOnce_putName {entries : List (String × Nat)} (h : ListedOnce entries)
    (name : String) (index : Nat) : ListedOnce (putName name index entries) := by
  rw [ListedOnce, names_putName]
  split
  · exact h
  · next hnew =>
    refine List.nodup_append.mpr ⟨h, List.pairwise_singleton _ name, ?_⟩
    rintro other hother _ hname rfl
    exact hnew (List.mem_singleton.mp hname ▸ hother)

theorem gives_variables : Gives readVariables ListedOnce := by
  refine gives_object (fun name entries reader hs hr => ?_) _ List.nodup_nil
  cases hr
  exact (gives_true (readNat indexWord)).map (g := fun index => putName name index entries)
    fun index _ => listedOnce_putName hs name index

theorem gives_field (f : Field) (a : Arena p) (h : NamesOnce a) :
    Gives (readField f a) NamesOnce := by
  have hold : ∀ {α : Type} (reader : Reader α) (g : α → Arena p), (∀ r, NamesOnce (g r)) →
      Gives (fun cs => (reader cs).map fun r => (g r.1, r.2)) NamesOnce :=
    fun reader g hg => (gives_true reader).map fun r _ => hg r
  cases f with
  | memory => exact hold _ (fun r => { a with memory := r }) fun _ => h
  | outputs => exact hold _ (fun r => { a with outputs := r }) fun _ => h
  | namedSlots =>
    exact gives_variables.map (Q := NamesOnce) (g := fun r => { a with namedSlots := r })
      fun _ hr => hr
  | inputs => exact hold _ (fun r => { a with inputs := r }) fun _ => h
  | outputBindings => exact hold _ (fun r => { a with outputBindings := r }) fun _ => h
  | targets => exact hold _ (fun r => { a with targets := r }) fun _ => h
  | rate => exact hold _ (fun r => { a with rate := r }) fun _ => h

/-- Where an arena comes from. -/
inductive Begun : Arena p → Prop
  | new : Begun Arena.empty
  | snapshot {text : String} {a : Arena p} (h : ofText p text = .ok a) : Begun a
  | file {tree : Tree} {path : String} {a : Arena p} (h : (loadArena p tree path).1 = .ok a) :
    Begun a

theorem ofText_of_loadArena {tree : Tree} {path : String} {a : Arena p}
    (h : (loadArena p tree path).1 = .ok a) :
    ∃ text, readText tree path = .ok text ∧ ofText p text = .ok a := by
  rw [loadArena] at h
  cases hfile : FileTree.readText tree path with
  | error cause => simp [hfile] at h
  | ok text =>
    simp only [hfile] at h
    cases htext : ofText p text with
    | error e => simp [htext] at h
    | ok b =>
      simp only [htext, Except.ok.injEq] at h
      exact ⟨text, rfl, by rw [htext, h]⟩

/-- An arena is new, or a snapshot was read. -/
theorem Begun.eq_empty_or_ofText {a : Arena p} (h : Begun a) :
    a = Arena.empty ∨ ∃ text, ofText p text = .ok a := by
  cases h with
  | new => exact .inl rfl
  | snapshot h => exact .inr ⟨_, h⟩
  | file h =>
    obtain ⟨text, -, htext⟩ := ofText_of_loadArena h
    exact .inr ⟨text, htext⟩

theorem Begun.sound {a : Arena p} (h : Begun a) : Sound a := by
  obtain rfl | ⟨text, htext⟩ := h.eq_empty_or_ofText
  · exact sound_empty
  · exact (ofText_eq_ok.mp htext).2

theorem Begun.namesOnce {a : Arena p} (h : Begun a) : NamesOnce a := by
  have hempty : NamesOnce (Arena.empty : Arena p) := List.nodup_nil
  obtain rfl | ⟨text, htext⟩ := h.eq_empty_or_ofText
  · exact hempty
  · have hreader : Gives ((shape p).reader Arena.empty) NamesOnce := gives_reader gives_field hempty
    exact gives_document hreader (ofText_eq_ok.mp htext).1

/-- What can be done to an arena. Edits in place write values over the first ones of an array. -/
inductive Change (p : Precision) (δ : Type)
  | allocate (value : Value p)
  | allocateOrReuse (name : String) (value : Value p)
  | call (c : Call p) (index : Nat)
  | editMemory (values : List (Value p))
  | editOutputs (values : List (Value p))
  | feed (owner : Network p δ) (inputs : List (Value p))
  | train (owner : Network p δ) (rate : Value p) (targets : List (Value p))

/-- The arena after a change; a pass is run by a network that owns the arena. -/
def Change.after [Device p δ] (change : Change p δ) (a : Arena p) : Arena p :=
  match change with
  | .allocate value => (a.allocate value).2
  | .allocateOrReuse name value => (a.allocateOrReuse name value).2
  | .call c index => (c.perform index a).2
  | .editMemory values => a.overwriteMemory values
  | .editOutputs values => a.overwriteOutputs values
  | .feed owner inputs => ({ owner with arena := a }.feed inputs).network.arena
  | .train owner rate targets => ({ owner with arena := a }.train rate targets).network.arena

def changed [Device p δ] (changes : List (Change p δ)) (a : Arena p) : Arena p :=
  changes.foldl (fun a change => change.after a) a

section
variable {a : Arena p}

theorem sound_allocate (h : Sound a) (value : Value p) : Sound (a.allocate value).2 :=
  sound_of_grows h ⟨by simp [Arena.allocate], Nat.le_refl _⟩ (fun _ hi => .inl hi) h.outputs

theorem sound_allocateOrReuse (h : Sound a) (name : String) (value : Value p) :
    Sound (a.allocateOrReuse name value).2 := by
  rw [Arena.allocateOrReuse]
  split
  · exact h
  · refine sound_of_grows h ⟨by simp [Arena.allocate], Nat.le_refl _⟩ (fun index hi => ?_)
      h.outputs
    simp only [boundSlots, Arena.allocate, List.mem_append, List.mem_map] at hi ⊢
    obtain hi | ⟨entry, hentry, rfl⟩ := hi
    · exact .inl (.inl hi)
    · obtain rfl | hentry := mem_putName hentry
      · exact .inr (by simp)
      · exact .inl (.inr ⟨entry, hentry, rfl⟩)

theorem grows_allocateOrReuse (a : Arena p) (name : String) (value : Value p) :
    Grows a (a.allocateOrReuse name value).2 := by
  rw [Arena.allocateOrReuse]
  split
  · exact .refl a
  · exact ⟨by simp [Arena.allocate], Nat.le_refl _⟩

theorem grows_writes (c : Call p) (index : Nat) (a : Arena p) : Grows a (c.written index a) := by
  cases c <;> constructor <;> simp [Call.written, Call.writes]

theorem mem_boundSlots_writes {c : Call p} {index slot : Nat}
    (h : slot ∈ boundSlots (c.written index a)) : slot ∈ boundSlots a ∨ slot = index := by
  simp only [boundSlots, List.mem_append, Option.mem_toList] at h ⊢
  cases c <;> simp only [Call.written, Call.writes, List.foldl, List.mem_append, List.mem_singleton,
    Option.some.injEq] at h <;> grind

theorem outputs_writes (h : Sound a) (c : Call p) (index : Nat) :
    (c.written index a).outputs.length = (c.written index a).outputBindings.length := by
  cases c <;> simp [Call.written, Call.writes, h.outputs]

theorem grows_perform (c : Call p) (index : Nat) (a : Arena p) : Grows a (c.perform index a).2 := by
  obtain hstays | ⟨-, hdone⟩ := c.perform_cases index a
  · rw [hstays]
    exact .refl a
  · rw [hdone]
    exact grows_writes c index a

theorem sound_perform (h : Sound a) (c : Call p) (index : Nat) : Sound (c.perform index a).2 := by
  obtain hstays | ⟨hi, hdone⟩ := c.perform_cases index a
  · rw [hstays]
    exact h
  · have hgrows := grows_writes c index a
    rw [hdone]
    refine sound_of_grows h hgrows (fun slot hslot => ?_) (outputs_writes h c index)
    obtain hold | rfl := mem_boundSlots_writes hslot
    · exact .inl hold
    · exact .inr (Nat.lt_of_lt_of_le hi hgrows.memory)

theorem namedSlots_perform (c : Call p) (index : Nat) (a : Arena p) :
    (c.perform index a).2.namedSlots = a.namedSlots := by
  obtain hstays | ⟨-, hdone⟩ := c.perform_cases index a
  · rw [hstays]
  · rw [hdone]
    cases c <;> rfl

theorem namesOnce_allocateOrReuse (h : NamesOnce a) (name : String) (value : Value p) :
    NamesOnce (a.allocateOrReuse name value).2 := by
  rw [Arena.allocateOrReuse]
  split
  · exact h
  · exact listedOnce_putName h name _

end

section
variable [Device p δ]

theorem sound_after {a : Arena p} (h : Sound a) (change : Change p δ) : Sound (change.after a) := by
  cases change with
  | allocate value => exact sound_allocate h value
  | allocateOrReuse name value => exact sound_allocateOrReuse h name value
  | call c index => exact sound_perform h c index
  | editMemory values => exact (rewritten_overwriteMemory a values).sound h
  | editOutputs values => exact (rewritten_overwriteOutputs a values).sound h
  | feed owner inputs => exact (rewritten_feed { owner with arena := a } inputs).sound h
  | train owner rate targets =>
    exact (rewritten_train { owner with arena := a } rate targets).sound h

theorem grows_after (change : Change p δ) (a : Arena p) : Grows a (change.after a) := by
  cases change with
  | allocate value => exact ⟨by simp [Change.after, Arena.allocate], Nat.le_refl _⟩
  | allocateOrReuse name value => exact grows_allocateOrReuse a name value
  | call c index => exact grows_perform c index a
  | editMemory values => exact (rewritten_overwriteMemory a values).grows
  | editOutputs values => exact (rewritten_overwriteOutputs a values).grows
  | feed owner inputs => exact (rewritten_feed { owner with arena := a } inputs).grows
  | train owner rate targets =>
    exact (rewritten_train { owner with arena := a } rate targets).grows

theorem namesOnce_after {a : Arena p} (h : NamesOnce a) (change : Change p δ) :
    NamesOnce (change.after a) := by
  cases change with
  | allocate value => exact h
  | allocateOrReuse name value => exact namesOnce_allocateOrReuse h name value
  | call c index =>
    rw [NamesOnce, Change.after, namedSlots_perform]
    exact h
  | editMemory values => exact h
  | editOutputs values => exact h
  | feed owner inputs => exact (rewritten_feed { owner with arena := a } inputs).namesOnce h
  | train owner rate targets =>
    exact (rewritten_train { owner with arena := a } rate targets).namesOnce h

theorem sound_changed {a : Arena p} (h : Sound a) (changes : List (Change p δ)) :
    Sound (changed changes a) := by
  induction changes generalizing a with
  | nil => exact h
  | cons change changes ih => exact ih (sound_after h change)

theorem namesOnce_changed {a : Arena p} (h : NamesOnce a) (changes : List (Change p δ)) :
    NamesOnce (changed changes a) := by
  induction changes generalizing a with
  | nil => exact h
  | cons change changes ih => exact ih (namesOnce_after h change)

theorem grows_changed (changes : List (Change p δ)) (a : Arena p) :
    Grows a (changed changes a) := by
  induction changes generalizing a with
  | nil => exact .refl a
  | cons change changes ih => exact (grows_after change a).trans (ih (change.after a))

end

/-- An element of an array, as kernels spell it, stands somewhere in the text. -/
def Mentions (text array : String) (index : Nat) : Prop :=
  ∃ before behind, text = before ++ Arena.element array index ++ behind

/-- The expressions of all four bind fragments. -/
def bindExpressions (a : Arena p) : List String :=
  a.inputsFragment.expressions ++ a.outputsFragment.expressions ++ a.rateFragment.expressions ++
    a.targetsFragment.expressions

theorem number_not_mem {c : Char} (hc : isDigit c = false) (n : Nat) : c ∉ JsonLayout.number n := by
  intro h
  rw [isDigit_of_mem_number h] at hc
  cases hc

theorem toList_element (array : String) (index : Nat) :
    (Arena.element array index).toList =
      array.toList ++ '[' :: (JsonLayout.number index ++ [']']) := by
  simp [Arena.element, JsonLayout.number]

/-- A number in front of a bracket is told by the text. -/
theorem number_inj {m n : Nat} {cs ds : List Char}
    (h : JsonLayout.number m ++ ']' :: cs = JsonLayout.number n ++ ']' :: ds) : m = n := by
  have hdigits : ∀ k more, (JsonLayout.number k ++ ']' :: more).takeWhile isDigit =
      JsonLayout.number k := by
    intro k more
    rw [List.takeWhile_append_of_pos fun c => isDigit_of_mem_number]
    simp [isDigit]
  have hsame : JsonLayout.number m = JsonLayout.number n := by
    rw [← hdigits m cs, h, hdigits]
  rw [← digitsFrom_number m, hsame, digitsFrom_number]

/-- Where the first letter of an array stands only once, one element can be mentioned at most. -/
theorem Mentions.index_eq {text array : String} {c : Char} {index slot : Nat}
    (h : Mentions text array index) (name front behind : List Char) (ha : array.toList = c :: name)
    (ht : text.toList = front ++ c :: (name ++ '[' :: (JsonLayout.number slot ++ ']' :: behind)))
    (hf : c ∉ front) (hb : c ∉ name ++ '[' :: (JsonLayout.number slot ++ ']' :: behind)) :
    index = slot := by
  obtain ⟨before, rest, rfl⟩ := h
  have hsplit : front ++ c :: (name ++ '[' :: (JsonLayout.number slot ++ ']' :: behind)) =
      before.toList ++ c :: (name ++ '[' :: (JsonLayout.number index ++ ']' :: rest.toList)) := by
    rw [← ht]
    simp [toList_element, ha]
  obtain ⟨-, -, hrest⟩ := (List.append_cons_inj_of_notMem hf hb).mp hsplit
  have hnumbers := (List.append_cancel_left_eq _ _ _).mp hrest
  exact (number_inj (List.cons.inj hnumbers).2).symm

theorem not_mentions {text array : String} {c : Char} {name : List Char} {index : Nat}
    (ha : array.toList = c :: name) (ht : c ∉ text.toList) : ¬ Mentions text array index := by
  rintro ⟨before, rest, rfl⟩
  simp [toList_element, ha] at ht

/-- A statement that copies an argument into a slot mentions that slot alone. -/
theorem mentions_intoSlot {source : String} (hs : source ∈ ["input", "rate", "target"])
    (slot k : Nat) :
    let e := Arena.assignment (Arena.element "x" slot) (Arena.element source k)
    (∀ index, Mentions e "x" index → index = slot) ∧ ∀ index, ¬ Mentions e "output" index := by
  intro e
  have hletters : 'x' ∉ source.toList ∧ 'o' ∉ source.toList := by
    revert source
    decide
  have hx : 'x' ∉ JsonLayout.number slot ∧ 'x' ∉ JsonLayout.number k :=
    ⟨number_not_mem rfl slot, number_not_mem rfl k⟩
  have ho : 'o' ∉ JsonLayout.number slot ∧ 'o' ∉ JsonLayout.number k :=
    ⟨number_not_mem rfl slot, number_not_mem rfl k⟩
  have he : e.toList = 'x' :: '[' :: (JsonLayout.number slot ++
      ']' :: ' ' :: '=' :: ' ' :: (source.toList ++ '[' :: (JsonLayout.number k ++ [']']))) := by
    simp [e, Arena.assignment, toList_element]
  constructor
  · intro index h
    refine h.index_eq (c := 'x') [] [] _ rfl he (by simp) ?_
    simp [hletters, hx]
  · intro index
    refine not_mentions (c := 'o') rfl ?_
    simp [he, hletters, ho]

/-- A statement that copies a slot into an output mentions that slot and that output alone. -/
theorem mentions_intoOutput (slot k : Nat) :
    let e := Arena.assignment (Arena.element "output" k) (Arena.element "x" slot)
    (∀ index, Mentions e "x" index → index = slot) ∧
      ∀ index, Mentions e "output" index → index = k := by
  intro e
  have hx : 'x' ∉ JsonLayout.number slot ∧ 'x' ∉ JsonLayout.number k :=
    ⟨number_not_mem rfl slot, number_not_mem rfl k⟩
  have ho : 'o' ∉ JsonLayout.number slot ∧ 'o' ∉ JsonLayout.number k :=
    ⟨number_not_mem rfl slot, number_not_mem rfl k⟩
  constructor
  · intro index h
    refine h.index_eq (c := 'x') []
      ("output".toList ++ '[' :: (JsonLayout.number k ++ "] = ".toList)) [] rfl ?_ ?_ ?_
    · simp [e, Arena.assignment, toList_element]
    · simp [hx]
    · simp [hx]
  · intro index h
    refine h.index_eq (c := 'o') "utput".toList []
      (" = x[".toList ++ (JsonLayout.number slot ++ [']'])) rfl ?_ ?_ ?_
    · simp [e, Arena.assignment, toList_element]
    · simp
    · simp [ho]

/-- In a sound arena the bind fragments mention slots and outputs that exist. -/
theorem Sound.mentions {a : Arena p} (h : Sound a) {e : String} (he : e ∈ bindExpressions a) :
    (∀ index, Mentions e "x" index → index < a.memory.length) ∧
      ∀ index, Mentions e "output" index → index < a.outputs.length := by
  have hslots := h.slots
  have into : ∀ source ∈ ["input", "rate", "target"], ∀ slot k, slot ∈ boundSlots a →
      e = Arena.assignment (Arena.element "x" slot) (Arena.element source k) →
      (∀ index, Mentions e "x" index → index < a.memory.length) ∧
        ∀ index, Mentions e "output" index → index < a.outputs.length := by
    rintro source hs slot k hslot rfl
    obtain ⟨hx, ho⟩ := mentions_intoSlot hs slot k
    refine ⟨fun index hi => ?_, fun index hi => absurd hi (ho index)⟩
    rw [hx index hi]
    exact hslots slot hslot
  simp only [bindExpressions, List.mem_append] at he
  obtain ((hin | hout) | hrate) | htarget := he
  · obtain ⟨k, hk, rfl⟩ := List.mem_mapIdx.mp hin
    refine into "input" (by simp) _ k ?_ rfl
    simp [boundSlots]
  · obtain ⟨k, hk, rfl⟩ := List.mem_mapIdx.mp hout
    obtain ⟨hx, ho⟩ := mentions_intoOutput a.outputBindings[k] k
    refine ⟨fun index hi => ?_, fun index hi => ?_⟩
    · rw [hx index hi]
      exact hslots _ (by simp [boundSlots])
    · rw [ho index hi, h.outputs]
      exact hk
  · obtain ⟨slot, hslot, rfl⟩ := List.mem_map.mp hrate
    refine into "rate" (by simp) slot 0 ?_ rfl
    simp only [boundSlots, List.mem_append]
    exact .inl (.inr hslot)
  · obtain ⟨k, hk, rfl⟩ := List.mem_mapIdx.mp htarget
    refine into "target" (by simp) _ k ?_ rfl
    simp [boundSlots]

/-- Whatever is done to an arena that is new or was read, everything that it binds exists, its bind
fragments stay within both arrays in every later state, and calls that fail leave it alone. A text
that can be read is a snapshot exactly when what was read is sound. -/
theorem bindings_stay_sound [Device p δ] {a : Arena p} (h : Begun a)
    (changes : List (Change p δ)) :
    let b := changed changes a
    Sound b ∧
      (∀ (later : List (Change p δ)), ∀ e ∈ bindExpressions b,
        (∀ index, Mentions e "x" index → index < (changed later b).memory.length) ∧
          ∀ index, Mentions e "output" index → index < (changed later b).outputs.length) ∧
      (∀ (c : Call p) (index : Nat) (after : Arena p), c.outcome index b = .ok after →
        index < b.memory.length ∧ c.perform index b = (.ok (), after)) ∧
      (∀ (c : Call p) (index : Nat) (e : ArenaError), c.outcome index b = .error e →
        b.memory.length ≤ index ∧ e = .indexOutOfBounds index b.memory.length ∧
          c.perform index b = (.error e, b)) ∧
      ∀ text decoded, ofText p text = .ok decoded ↔
        readDocument ((shape p).reader Arena.empty) text = .ok decoded ∧ Sound decoded := by
  intro b
  have hb : Sound b := sound_changed h.sound changes
  refine ⟨hb, fun later e he => ?_, fun c index after => Call.perform_of_ok,
    fun c index e => Call.perform_of_error, fun text decoded => ofText_eq_ok⟩
  have hgrows := grows_changed later b
  obtain ⟨hx, ho⟩ := hb.mentions he
  exact ⟨fun index hi => Nat.lt_of_lt_of_le (hx index hi) hgrows.memory,
    fun index hi => Nat.lt_of_lt_of_le (ho index hi) hgrows.outputs⟩

/-- A snapshot with an input and an output, and with parts that are left out. -/
def boundText : String :=
  "\x7b\"memory\":[3,4.0],\"outputs\":[9],\"input_mapping\":[0],\"output_mapping\":[1]\x7d"

def boundArena : Arena .single := ⟨[.ofNat 3, .ofNat 4], [.ofNat 9], [], [0], [1], [], none⟩

/-- A network with a built kernel. -/
def owner : Network .single (Simulated .single) :=
  run [.attach (.attached (Simulated.start .single [] false [])), .compile]
    (Origin.record Arena.empty ⟨[⟨1, "feed_0", ""⟩], [⟨1, "train_0", ""⟩]⟩).network

/-- A binding that is refused, one of a new slot, and a forward pass. -/
def boundChanges : List (Change .single (Simulated .single)) :=
  [.call .registerOutput 2, .allocateOrReuse "weight" .nan, .call .registerOutput 2,
    .feed owner [.ofNat 5]]

theorem bindings_stay_sound_boundText :
    ofText .single boundText = .ok boundArena ∧
      changed boundChanges boundArena =
        ⟨[.ofNat 4, .ofNat 4, .nan], [.ofNat 4, .ofNat 4], [("weight", 2)], [0], [1, 2], [], none⟩ ∧
      Sound (changed boundChanges boundArena) ∧
      Call.perform .setRate 3 (changed boundChanges boundArena) =
        (.error (.indexOutOfBounds 3 3), changed boundChanges boundArena) := by
  have hbegun : ofText .single boundText = .ok boundArena := by decide +kernel
  obtain ⟨hsound, -, -, hfails, -⟩ := bindings_stay_sound (.snapshot hbegun) boundChanges
  exact ⟨hbegun, by decide +kernel, hsound, (hfails .setRate 3 _ (by decide +kernel)).2.2⟩

end NeuronKernels.ArenaBindings
