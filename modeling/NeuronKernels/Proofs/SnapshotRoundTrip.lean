import NeuronKernels.Proofs.ArenaBindings
import NeuronKernels.Proofs.RereadValues

/-!
# Snapshots that are read again

The snapshot of a sound arena is accepted when all of its values are finite (`ofText_snapshotText`),
and then everything comes back but, possibly, the values themselves: each of them is what the quick
way of reading makes of it (`restored`). Named slots come back in the order of their lines, which
look-ups do not see. With a value that is not finite the snapshot is refused for the word that
stands for that value (`ofText_refused`), so an arena can be saved in a form that is not accepted.
-/

namespace NeuronKernels.SnapshotRoundTrip
open ArenaBindings ArenaSnapshot BinaryFloat CompactNumbers ComputeDevice JsonReading JsonRefusals
open JsonRoundTrip MemoryArena RereadValues SimulatedDevice TextPieces

variable {p : Precision} {δ : Type} {a : Arena p}

/-- The named slots in the order of their lines. -/
def sortedSlots (entries : List (String × Nat)) : List (String × Nat) :=
  entries.mergeSort fun s t =>
    !precedes (String.ofList (variableLine t)) (String.ofList (variableLine s))

theorem variableLines_eq (entries : List (String × Nat)) :
    variableLines entries = (sortedSlots entries).map variableLine := by
  rw [variableLines, sortByText, sortedSlots]
  exact (List.map_mergeSort (f := variableLine)
    (r := fun s t => !precedes (String.ofList (variableLine t)) (String.ofList (variableLine s)))
    (s := fun s t => !precedes (String.ofList t) (String.ofList s)) fun _ _ _ _ => rfl).symm

theorem perm_sortedSlots (entries : List (String × Nat)) : (sortedSlots entries).Perm entries :=
  List.mergeSort_perm entries _

theorem putName_new {name : String} {entries : List (String × Nat)}
    (h : name ∉ entries.map Prod.fst) (index : Nat) :
    putName name index entries = entries ++ [(name, index)] := by
  induction entries with
  | nil => rfl
  | cons entry rest ih =>
    rw [List.map_cons, List.mem_cons, not_or] at h
    rw [putName, if_neg (Ne.symm h.1), ih h.2, List.cons_append]

theorem findName_eq_some {entries : List (String × Nat)} (h : ListedOnce entries) {name : String}
    {index : Nat} : findName name entries = some index ↔ (name, index) ∈ entries := by
  induction entries with
  | nil => simp [findName]
  | cons entry rest ih =>
    obtain ⟨hnew, hrest⟩ := List.nodup_cons.mp h
    rw [findName]
    by_cases he : entry.1 = name
    · subst he
      rw [if_pos rfl, Option.some.injEq, List.mem_cons]
      constructor
      · rintro rfl
        exact .inl rfl
      · rintro (heq | hmem)
        · exact (congrArg Prod.snd heq).symm
        · exact absurd (List.mem_map.mpr ⟨_, hmem, rfl⟩) hnew
    · rw [if_neg he, ih hrest, List.mem_cons]
      constructor
      · exact .inr
      · rintro (rfl | hmem)
        · exact absurd rfl he
        · exact hmem

theorem listedOnce_sorted {entries : List (String × Nat)} (h : ListedOnce entries) :
    ListedOnce (sortedSlots entries) :=
  ((perm_sortedSlots entries).map Prod.fst).nodup_iff.mpr h

/-- Look-ups do not see the order of the names. -/
theorem findName_sorted {entries : List (String × Nat)} (h : ListedOnce entries) (name : String) :
    findName name (sortedSlots entries) = findName name entries := by
  refine Option.ext fun index => ?_
  rw [findName_eq_some (listedOnce_sorted h), findName_eq_some h,
    (perm_sortedSlots entries).mem_iff]

theorem folds_variables {entries : List (String × Nat)}
    (hfit : ∀ entry ∈ entries, entry.2 < wordLimit) (known : List (String × Nat))
    (h : ListedOnce (known ++ entries)) :
    Folds (fun name entries => .ok fun cs =>
        (readNat indexWord cs).map fun r => (putName name r.1 entries, r.2))
      (entries.map variableLine) known (known ++ entries) := by
  induction entries generalizing known with
  | nil =>
    rw [List.append_nil]
    exact .nil known
  | cons entry rest ih =>
    have hsplit : known ++ entry :: rest = known ++ [entry] ++ rest := by simp
    have hnew : entry.1 ∉ known.map Prod.fst := by
      rw [ListedOnce, List.map_append, List.nodup_append] at h
      exact fun hmem => h.2.2 entry.1 hmem entry.1 (by simp) rfl
    have hput : putName entry.1 entry.2 known = known ++ [entry] := putName_new hnew entry.2
    have hread := reads_number (hfit entry (by simp)) indexWord
    rw [hsplit] at h ⊢
    have htail := ih (fun e he => hfit e (by simp [he])) (known ++ [entry]) h
    refine .cons rfl (fun rest hr => ?_) htail
    rw [hread.takes ((skipSpace_blank _).trans (skipSpace_starts hread.starts rest)) hr, ← hput]
    rfl

theorem reads_variables {entries : List (String × Nat)} (h : ListedOnce entries)
    (hfit : ∀ entry ∈ entries, entry.2 < wordLimit) (depth : Nat) :
    Reads readVariables (JsonLayout.object depth (variableLines entries))
      (sortedSlots entries) := by
  have hfit' : ∀ entry ∈ sortedSlots entries, entry.2 < wordLimit :=
    fun entry he => hfit entry ((perm_sortedSlots entries).mem_iff.mp he)
  rw [variableLines_eq]
  exact reads_folds (folds_variables hfit' [] (listedOnce_sorted h)) "a map" depth

theorem reads_slots {slots : List Nat} (h : ∀ index ∈ slots, index < wordLimit) (depth : Nat) :
    Reads (readList (readNat indexWord)) (JsonLayout.list depth (slots.map JsonLayout.number))
      slots :=
  reads_items (fun index hi => reads_number (h index hi) indexWord) depth

theorem forall₂_values {values : List (Value p)} (h : ∀ v ∈ values, v.isFinite = true) :
    List.Forall₂ (Reads (readFloat p)) (values.map valueText) (values.map restoredValue) :=
  forall₂_reads fun v hv => reads_value (reread_restored (h v hv))

theorem reads_slot {slot : Option Nat} (h : ∀ index ∈ slot, index < wordLimit) :
    Reads (readOptional (readNat indexWord)) (slotText slot) slot := by
  cases slot with
  | none =>
    refine ⟨⟨'n', _, rfl, by decide⟩, fun {cs rest} hcs _ => ?_⟩
    have hnull : skipSpace cs = 'n' :: 'u' :: 'l' :: 'l' :: rest := hcs
    simp only [readOptional, hnull]
    rfl
  | some index =>
    have hread := reads_number (h index rfl) indexWord
    refine ⟨hread.starts, fun {cs rest} hcs hr => ?_⟩
    obtain ⟨c, ds, hds, hc⟩ := isDigit_head index rest
    have hnumber : skipSpace cs = c :: ds := hcs.trans hds
    have hn : c ≠ 'n' := by
      rintro rfl
      cases hc
    rw [readOptional, hnumber]
    split
    · next heq =>
      exact absurd (List.cons.inj heq).1 hn
    · rw [← hds, hread.append hr]
      rfl

def FiniteValues (a : Arena p) : Prop := ∀ v ∈ a.memory ++ a.outputs, v.isFinite = true

/-- Everything an arena refers to exists, no name is listed twice, and all indices are words. -/
structure Storable (a : Arena p) : Prop where
  sound : Sound a
  names : NamesOnce a
  fits : a.memory.length ≤ wordLimit

theorem Storable.lt_wordLimit (h : Storable a) {index : Nat} (hi : index ∈ boundSlots a) :
    index < wordLimit :=
  Nat.lt_of_lt_of_le (h.sound.slots index hi) h.fits

def restored (a : Arena p) : Arena p :=
  { a with
    memory := a.memory.map restoredValue
    outputs := a.outputs.map restoredValue
    namedSlots := sortedSlots a.namedSlots }

/-- An arena with one field of another. -/
def setField (a known : Arena p) : Field → Arena p
  | .memory => { known with memory := a.memory }
  | .outputs => { known with outputs := a.outputs }
  | .namedSlots => { known with namedSlots := a.namedSlots }
  | .inputs => { known with inputs := a.inputs }
  | .outputBindings => { known with outputBindings := a.outputBindings }
  | .targets => { known with targets := a.targets }
  | .rate => { known with rate := a.rate }

theorem arena_distinct (p : Precision) : Distinct (shape p) where
  names := show ∀ f ∈ fields, ∀ g ∈ fields, f.name = g.name → f = g by decide
  nodup := show fields.Nodup by decide

/-- A field without values can be read back, and one with values if they are finite. -/
theorem reads_field (h : Storable a) {f : Field}
    (hm : f = .memory → ∀ v ∈ a.memory, v.isFinite = true)
    (ho : f = .outputs → ∀ v ∈ a.outputs, v.isFinite = true) (known : Arena p) :
    Reads (readField f known) (fieldText a f) (setField (restored a) known f) := by
  have hslots : ∀ slots : List Nat, (∀ index ∈ slots, index ∈ boundSlots a) →
      Reads (readList (readNat indexWord)) (JsonLayout.list 1 (slots.map JsonLayout.number))
        slots :=
    fun slots hsub => reads_slots (fun index hi => h.lt_wordLimit (hsub index hi)) 1
  have hbound : ∀ index, index ∈ boundSlots a ↔ (((index ∈ a.inputs ∨ index ∈ a.outputBindings) ∨
      index ∈ a.targets) ∨ a.rate = some index) ∨ ∃ entry ∈ a.namedSlots, entry.2 = index := by
    simp [boundSlots, or_assoc]
  cases f with
  | memory =>
    exact (reads_list (forall₂_values (hm rfl)) 1).map fun r => { known with memory := r }
  | outputs =>
    exact (reads_list (forall₂_values (ho rfl)) 1).map fun r => { known with outputs := r }
  | namedSlots =>
    have hfit : ∀ entry ∈ a.namedSlots, entry.2 < wordLimit := fun entry hentry =>
      h.lt_wordLimit ((hbound _).mpr (.inr ⟨entry, hentry, rfl⟩))
    exact (reads_variables h.names hfit 1).map fun r => { known with namedSlots := r }
  | inputs =>
    refine (hslots a.inputs fun index hi => ?_).map fun r => { known with inputs := r }
    exact (hbound index).mpr (.inl (.inl (.inl (.inl hi))))
  | outputBindings =>
    refine (hslots a.outputBindings fun index hi => ?_).map
      fun r => { known with outputBindings := r }
    exact (hbound index).mpr (.inl (.inl (.inl (.inr hi))))
  | targets =>
    refine (hslots a.targets fun index hi => ?_).map fun r => { known with targets := r }
    exact (hbound index).mpr (.inl (.inl (.inr hi)))
  | rate =>
    refine (reads_slot fun index hi => ?_).map fun r => { known with rate := r }
    exact h.lt_wordLimit ((hbound index).mpr (.inl (.inr hi)))

theorem sound_restored (h : Sound a) : Sound (restored a) where
  slots index hi := by
    have hperm : (boundSlots (restored a)).Perm (boundSlots a) :=
      ((perm_sortedSlots a.namedSlots).map Prod.snd).append_left _
    rw [restored, List.length_map]
    exact h.slots index (hperm.mem_iff.mp hi)
  outputs := (List.length_map _).trans h.outputs

/-- The second arena has the slots and outputs of the first one, though perhaps with other values,
and the same names and bindings. -/
structure SameShape (a b : Arena p) : Prop where
  memory : b.memory.length = a.memory.length
  outputs : b.outputs.length = a.outputs.length
  names : ∀ name, b.variableIndex name = a.variableIndex name
  inputs : b.inputs = a.inputs
  outputBindings : b.outputBindings = a.outputBindings
  targets : b.targets = a.targets
  rate : b.rate = a.rate

theorem sameShape_restored (h : NamesOnce a) : SameShape a (restored a) where
  memory := List.length_map _
  outputs := List.length_map _
  names := findName_sorted h
  inputs := rfl
  outputBindings := rfl
  targets := rfl
  rate := rfl

theorem valuesAgree_map (values : List (Value p)) (g : Value p → Value p) :
    Arena.valuesAgree values (values.map g) = true ↔ ∀ v ∈ values, v.agrees (g v) = true := by
  induction values with
  | nil => simp [Arena.valuesAgree]
  | cons v values ih =>
    rw [List.map_cons, Arena.valuesAgree, Bool.and_eq_true, ih, List.forall_mem_cons]

theorem names_agree {b : Arena p} (h : NamesOnce a) (hb : SameShape a b) :
    a.namedSlots.all (fun entry => b.variableIndex entry.1 == some entry.2) = true := by
  rw [List.all_eq_true]
  intro entry hentry
  rw [hb.names, beq_iff_eq]
  exact (findName_eq_some h).mpr hentry

/-- What comes back equals the arena exactly when each of its values equals what comes back for
it. -/
theorem agrees_restored (h : NamesOnce a) :
    a.agrees (restored a) = true ↔
      ∀ v ∈ a.memory ++ a.outputs, v.agrees (restoredValue v) = true := by
  have hlength : a.namedSlots.length = (sortedSlots a.namedSlots).length :=
    (perm_sortedSlots a.namedSlots).length_eq.symm
  have hnames := names_agree h (sameShape_restored h)
  simp only [Arena.agrees, hnames, Bool.and_eq_true, beq_iff_eq]
  simp only [restored, valuesAgree_map, hlength, and_true, List.forall_mem_append]

/-- A snapshot of finite values is accepted. -/
theorem ofText_snapshotText (h : Storable a) (hf : FiniteValues a) :
    ofText p (snapshotText a) = .ok (restored a) := by
  have hmatches : Matches (shape p) (fieldText a) (setField (restored a)) :=
    { arena_distinct p with
      reads := fun f _ known => reads_field h (fun _ v hv => hf v (by simp [hv]))
        (fun _ v hv => hf v (by simp [hv])) known }
  have hread : readDocument ((shape p).reader Arena.empty) (snapshotText a) = .ok (restored a) :=
    readDocument_text (reads_object hmatches Arena.empty 0)
  exact ofText_eq_ok.mpr ⟨hread, sound_restored h.sound⟩

theorem exists_first_infinite {values : List (Value p)} (h : ¬ ∀ v ∈ values, v.isFinite = true) :
    ∃ before v after, values = before ++ v :: after ∧ (∀ w ∈ before, w.isFinite = true) ∧
      v.isFinite = false := by
  induction values with
  | nil => exact absurd nofun h
  | cons v values ih =>
    cases hv : v.isFinite with
    | false => exact ⟨[], v, values, rfl, nofun, hv⟩
    | true =>
      rw [List.forall_mem_cons, not_and] at h
      obtain ⟨before, w, after, rfl, hbefore, hw⟩ := ih (h hv)
      exact ⟨v :: before, w, after, rfl, List.forall_mem_cons.mpr ⟨hv, hbefore⟩, hw⟩

theorem refuses_values {values : List (Value p)} (h : ¬ ∀ v ∈ values, v.isFinite = true)
    (depth : Nat) :
    Refuses (readList (readFloat p)) (JsonLayout.list depth (values.map valueText))
      (.invalidType .null (precisionWord p)) := by
  obtain ⟨before, v, after, rfl, hbefore, hv⟩ := exists_first_infinite h
  rw [List.map_append, List.map_cons]
  exact refuses_list (forall₂_values hbefore) (refuses_value hv) (after.map valueText) depth

/-- A snapshot with a value that is not finite is refused for that value. -/
theorem ofText_refused (h : Storable a) (hf : ¬ FiniteValues a) :
    ofText p (snapshotText a) =
      .error (.malformed (.invalidType .null (precisionWord p))) := by
  have hrefuses : Refuses ((shape p).reader Arena.empty)
      (JsonLayout.object 0 ((shape p).fields.map (memberText (shape p) (fieldText a))))
      (.invalidType .null (precisionWord p)) := by
    by_cases hm : ∀ v ∈ a.memory, v.isFinite = true
    · have ho : ¬ ∀ v ∈ a.outputs, v.isFinite = true := fun ho =>
        hf fun v hv => (List.mem_append.mp hv).elim (hm v) (ho v)
      have hfields : (shape p).fields = [.memory] ++ .outputs ::
          [.namedSlots, .inputs, .outputBindings, .targets, .rate] := rfl
      have hbefore : ∀ f ∈ [Field.memory], ∀ known : Arena p,
          Reads (readField f known) (fieldText a f) (setField (restored a) known f) := by
        intro f hmem known
        obtain rfl := List.mem_singleton.mp hmem
        exact reads_field (f := .memory) h (fun _ => hm) nofun known
      have hrefused : ∀ known : Arena p, Refuses (readField .outputs known) (fieldText a .outputs)
          (.invalidType .null (precisionWord p)) := by
        intro known
        exact (refuses_values ho 1).map fun r => { known with outputs := r }
      exact refuses_object (arena_distinct p) hfields hbefore hrefused Arena.empty 0
    · have hfields : (shape p).fields = [] ++ .memory ::
          [.outputs, .namedSlots, .inputs, .outputBindings, .targets, .rate] := rfl
      have hbefore : ∀ f ∈ ([] : List Field), ∀ known : Arena p,
          Reads (readField f known) (fieldText a f) (setField (restored a) known f) :=
        fun _ hmem => absurd hmem List.not_mem_nil
      have hrefused : ∀ known : Arena p, Refuses (readField .memory known) (fieldText a .memory)
          (.invalidType .null (precisionWord p)) := by
        intro known
        exact (refuses_values hm 1).map fun r => { known with memory := r }
      exact refuses_object (arena_distinct p) hfields hbefore hrefused Arena.empty 0
  have hread : readDocument ((shape p).reader Arena.empty) (snapshotText a) =
      .error (.invalidType .null (precisionWord p)) := refuses_document hrefuses
  rw [ofText, hread]

section
variable {δ : Type} [Device p δ]

theorem storable_changed (h : Begun a) (changes : List (Change p δ))
    (hfits : (changed changes a).memory.length ≤ wordLimit) : Storable (changed changes a) :=
  ⟨sound_changed h.sound changes, namesOnce_changed h.namesOnce changes, hfits⟩

/-- Whatever was done to an arena that is new or was read, its snapshot is accepted if its values
are finite. All names and bindings come back as they were, and each value as what the quick way of
reading makes of it: the two arenas are equal exactly when that changes none of the values, and it
changes no short ones. -/
theorem snapshot_restores (h : Begun a) (changes : List (Change p δ))
    (hfits : (changed changes a).memory.length ≤ wordLimit)
    (hfinite : FiniteValues (changed changes a)) :
    let b := changed changes a
    ∃ c, ofText p (snapshotText b) = .ok c ∧ SameShape b c ∧
      c.memory = b.memory.map restoredValue ∧ c.outputs = b.outputs.map restoredValue ∧
      (b.agrees c = true ↔ ∀ v ∈ b.memory ++ b.outputs, v.agrees (restoredValue v) = true) ∧
      ((∀ v ∈ b.memory ++ b.outputs, Short v) → c.memory = b.memory ∧ c.outputs = b.outputs) := by
  intro b
  have hb : Storable b := storable_changed h changes hfits
  refine ⟨restored b, ofText_snapshotText hb hfinite, sameShape_restored hb.names, rfl, rfl,
    agrees_restored hb.names, fun hshort => ?_⟩
  have hsame : ∀ values : List (Value p), (∀ v ∈ values, Short v) →
      values.map restoredValue = values := fun values hvalues =>
    (List.map_congr_left fun v hv => restoredValue_short (hvalues v hv)).trans (List.map_id values)
  rw [List.forall_mem_append] at hshort
  exact ⟨hsame _ hshort.1, hsame _ hshort.2⟩

end

def threeQuarters : Value .double := .finite false ⟨0x3FE8000000000000, by decide⟩

def minusTwo : Value .double := .finite true ⟨0x4000000000000000, by decide⟩

/-- Two named slots, the later name first, and bindings of both. -/
def namedChanges : List (Change .double (Simulated .double)) :=
  [.allocateOrReuse "weight" threeQuarters, .allocateOrReuse "bias" minusTwo,
    .call .registerInput 1, .call .registerOutput 0, .call .setRate 1]

theorem snapshot_restores_named :
    let b := changed namedChanges Arena.empty
    b = ⟨[threeQuarters, minusTwo], [.zero], [("weight", 0), ("bias", 1)], [1], [0], [], some 1⟩ ∧
      ∃ c, ofText .double (snapshotText b) = .ok c ∧ SameShape b c ∧ c.memory = b.memory ∧
        c.outputs = b.outputs := by
  intro b
  have hb : b =
      ⟨[threeQuarters, minusTwo], [.zero], [("weight", 0), ("bias", 1)], [1], [0], [], some 1⟩ := by
    decide +kernel
  have hfits : b.memory.length ≤ wordLimit := by decide +kernel
  have hfinite : FiniteValues b := by
    unfold FiniteValues
    decide +kernel
  have hshort : ∀ v ∈ b.memory ++ b.outputs, Short v := by
    have hthreeQuarters : Short threeQuarters := ⟨by decide +kernel, by decide +kernel, nofun⟩
    have hminusTwo : Short minusTwo := ⟨by decide +kernel, by decide +kernel, nofun⟩
    have hzero : Short (.zero : Value .double) := ⟨by decide +kernel, by decide +kernel, nofun⟩
    rw [hb]
    simp [hthreeQuarters, hminusTwo, hzero]
  obtain ⟨c, hc, hshape, -, -, -, hvalues⟩ := snapshot_restores .new namedChanges hfits hfinite
  exact ⟨hb, c, hc, hshape, hvalues hshort⟩

/-- The value nearest to 0.9626272524095303. -/
def drifting : Value .double := .finite false ⟨0x3FEECDD7AAEACAEA, by decide⟩

/-- The value after it, which is nearest to 0.9626272524095304. -/
def drifted : Value .double := .finite false ⟨0x3FEECDD7AAEACAEB, by decide⟩

/-- A finite value that comes back as its neighbour. -/
theorem snapshot_drifts :
    let b := changed [(.allocate drifting : Change .double (Simulated .double))] Arena.empty
    let c : Arena .double := ⟨[drifted], [], [], [], [], [], none⟩
    FiniteValues b ∧ ofText .double (snapshotText b) = .ok c ∧ b.agrees c = false := by
  intro b c
  have hb : Storable b := storable_changed .new _ (by decide +kernel)
  have hfinite : FiniteValues b := by
    unfold FiniteValues
    decide +kernel
  have hc : restored b = c := by decide +kernel
  exact ⟨hfinite, hc ▸ ofText_snapshotText hb hfinite, by decide +kernel⟩

/-- Whatever was done to an arena that is new or was read, its snapshot is accepted exactly when
its values are finite, and what is accepted has the shape of the arena. The word that stands for any
other value is refused. -/
theorem snapshot_accepted_iff {δ : Type} [Device p δ] (h : Begun a) (changes : List (Change p δ))
    (hfits : (changed changes a).memory.length ≤ wordLimit) :
    let b := changed changes a
    ((∃ c, ofText p (snapshotText b) = .ok c) ↔ FiniteValues b) ∧
      (∀ c, ofText p (snapshotText b) = .ok c → SameShape b c) ∧
      (¬ FiniteValues b → ofText p (snapshotText b) =
        .error (.malformed (.invalidType .null (precisionWord p)))) := by
  intro b
  have hb : Storable b := storable_changed h changes hfits
  have hfinite : ∀ c, ofText p (snapshotText b) = .ok c → FiniteValues b := by
    intro c hc
    by_contra hbad
    rw [ofText_refused hb hbad] at hc
    cases hc
  refine ⟨⟨fun ⟨c, hc⟩ => hfinite c hc, fun hf => ⟨restored b, ofText_snapshotText hb hf⟩⟩,
    fun c hc => ?_, ofText_refused hb⟩
  rw [ofText_snapshotText hb (hfinite c hc), Except.ok.injEq] at hc
  exact hc ▸ sameShape_restored hb.names

/-- A bound slot whose output overflows. -/
def overflowing : List (Change .single (Simulated .single)) :=
  [.allocate .zero, .call .registerOutput 0, .editOutputs [.infinity true]]

/-- The output is written over afterwards. -/
def recovered : List (Change .single (Simulated .single)) :=
  overflowing ++ [.editOutputs [.zero]]

theorem snapshot_accepted_recovered :
    ofText .single (snapshotText (changed overflowing Arena.empty)) =
        .error (.malformed (.invalidType .null "f32")) ∧
      ∃ c, ofText .single (snapshotText (changed recovered Arena.empty)) = .ok c ∧
        SameShape (changed recovered Arena.empty) c := by
  obtain ⟨-, -, hrefused⟩ := snapshot_accepted_iff .new overflowing (by decide +kernel)
  obtain ⟨haccepted, hshape, -⟩ := snapshot_accepted_iff .new recovered (by decide +kernel)
  have hinfinite : ¬ FiniteValues (changed overflowing Arena.empty) := by
    unfold FiniteValues
    decide +kernel
  have hfinite : FiniteValues (changed recovered Arena.empty) := by
    unfold FiniteValues
    decide +kernel
  obtain ⟨c, hc⟩ := haccepted.mpr hfinite
  exact ⟨hrefused hinfinite, c, hc, hshape c hc⟩

/-- The snapshot of a slot that is not a number. -/
def nanText : String :=
  "\x7b\n  \"memory\": [\n    null\n  ],\n  \"outputs\": [],\n  \"variables\": \x7b\x7d,\n"
    ++ "  \"input_mapping\": [],\n  \"output_mapping\": [],\n  \"target_mapping\": [],\n"
    ++ "  \"rate_variable\": null\n\x7d"

/-- A snapshot that is written but not accepted. -/
theorem nan_snapshot_refused :
    let b := changed [(.allocate .nan : Change .double (Simulated .double))] Arena.empty
    snapshotText b = nanText ∧
      ofText .double nanText = .error (.malformed (.invalidType .null "f64")) := by
  intro b
  have hb : Storable b := storable_changed .new _ (by decide +kernel)
  have hinfinite : ¬ FiniteValues b := by
    unfold FiniteValues
    decide +kernel
  have htext : snapshotText b = nanText := by decide +kernel
  exact ⟨htext, htext ▸ ofText_refused hb hinfinite⟩

end NeuronKernels.SnapshotRoundTrip
