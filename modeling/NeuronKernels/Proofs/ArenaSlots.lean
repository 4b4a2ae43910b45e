import Mathlib.Data.List.Induction
import NeuronKernels.Proofs.ArenaBindings

/-!
# Slots of an arena

A call that asks for a slot gets the index behind all others, or an index that its name already has.
Which of the two it is can be told from the calls before it: a name has an index exactly if a call
has asked for it (`variableIndex_eq_none_iff`). So the slots of an arena and the calls that added
them belong together one by one (`lt_length_iff`, `HandsOut.position_eq`), and a name is bound to
the slot of the first call with that name (`variableIndex_eq_some_iff`), which no later change takes
from it.
-/

namespace NeuronKernels.ArenaSlots
open ArenaBindings BinaryFloat ComputeDevice KernelNetwork MemoryArena NetworkRuns

variable {p : Precision} {δ : Type}

/-- A change adds a slot when it comes after `earlier`: it asks for a slot without a name, or none
of the earlier ones has asked for its name. -/
def Allocates (earlier : List (Change p δ)) : Change p δ → Prop
  | .allocate _ => True
  | .allocateOrReuse name _ => ∀ value, .allocateOrReuse name value ∉ earlier
  | _ => False

def returned (a : Arena p) : Change p δ → Option Nat
  | .allocate value => some (a.allocate value).1
  | .allocateOrReuse name value => some (a.allocateOrReuse name value).1
  | _ => none

def nameOf : Change p δ → Option String
  | .allocateOrReuse name _ => some name
  | _ => none

theorem nameOf_eq_some_iff {change : Change p δ} {name : String} :
    nameOf change = some name ↔ ∃ value, change = .allocateOrReuse name value := by
  cases change <;> simp [nameOf]

def valueOf : Change p δ → Option (Value p)
  | .allocate value => some value
  | .allocateOrReuse _ value => some value
  | _ => none

section
variable {a : Arena p}

theorem allocateOrReuse_known {name : String} {index : Nat} (h : a.variableIndex name = some index)
    (value : Value p) : a.allocateOrReuse name value = (index, a) := by
  simp only [Arena.allocateOrReuse, h]

theorem allocateOrReuse_new {name : String} (h : a.variableIndex name = none) (value : Value p) :
    a.allocateOrReuse name value = (a.memory.length, { a with
      memory := a.memory ++ [value]
      namedSlots := putName name a.memory.length a.namedSlots }) := by
  simp only [Arena.allocateOrReuse, h]
  rfl

theorem variableIndex_allocateOrReuse (a : Arena p) (name other : String) (value : Value p) :
    (a.allocateOrReuse name value).2.variableIndex other =
      if other = name then some (a.allocateOrReuse name value).1 else a.variableIndex other := by
  cases h : a.variableIndex name with
  | some index =>
    rw [allocateOrReuse_known h]
    split
    · next hname => rw [hname, h]
    · rfl
  | none =>
    rw [allocateOrReuse_new h]
    split
    · next hname =>
      rw [hname]
      exact findName_putName_self name _ a.namedSlots
    · next hname => exact findName_putName_of_ne hname _ a.namedSlots

theorem length_perform (c : Call p) (index : Nat) (a : Arena p) :
    (c.perform index a).2.memory.length = a.memory.length := by
  obtain hstays | ⟨-, hdone⟩ := c.perform_cases index a
  · rw [hstays]
  · rw [hdone]
    cases c <;> simp [Call.written, Call.writes]

theorem variableIndex_rewritten {b : Arena p} (h : Rewritten a b) (name : String) :
    b.variableIndex name = a.variableIndex name := by
  rw [h.values]
  rfl

end

section
variable [Device p δ]

/-- A change that asks for no slot leaves all names and the number of slots alone. -/
theorem after_of_valueOf_eq_none {change : Change p δ} (h : valueOf change = none) (a : Arena p) :
    (change.after a).memory.length = a.memory.length ∧
      ∀ name, (change.after a).variableIndex name = a.variableIndex name := by
  cases change with
  | allocate value => cases h
  | allocateOrReuse name value => cases h
  | call c index =>
    refine ⟨length_perform c index a, fun name => ?_⟩
    rw [Arena.variableIndex, Change.after, namedSlots_perform]
    rfl
  | editMemory values =>
    have hr := rewritten_overwriteMemory a values
    exact ⟨hr.memory, variableIndex_rewritten hr⟩
  | editOutputs values =>
    have hr := rewritten_overwriteOutputs a values
    exact ⟨hr.memory, variableIndex_rewritten hr⟩
  | feed owner inputs =>
    have hr := rewritten_feed { owner with arena := a } inputs
    exact ⟨hr.memory, variableIndex_rewritten hr⟩
  | train owner rate targets =>
    have hr := rewritten_train { owner with arena := a } rate targets
    exact ⟨hr.memory, variableIndex_rewritten hr⟩

/-- A change gives an index to the name that it asks for, and to no other one. -/
theorem variableIndex_after (change : Change p δ) (a : Arena p) (name : String) :
    (change.after a).variableIndex name =
      if nameOf change = some name then returned a change else a.variableIndex name := by
  cases change with
  | allocate value => rfl
  | allocateOrReuse other value =>
    simp only [Change.after, variableIndex_allocateOrReuse, nameOf, returned, Option.some.injEq,
      eq_comm]
  | _ =>
    rw [if_neg (by simp [nameOf])]
    exact (after_of_valueOf_eq_none rfl a).2 name

theorem variableIndex_after_of_some {a : Arena p} {name : String} {index : Nat}
    (h : a.variableIndex name = some index) (change : Change p δ) :
    (change.after a).variableIndex name = some index := by
  rw [variableIndex_after]
  split
  · next hname =>
    obtain ⟨value, rfl⟩ := nameOf_eq_some_iff.mp hname
    rw [returned, allocateOrReuse_known h]
  · exact h

/-- A name keeps its slot for good. -/
theorem variableIndex_changed {a : Arena p} {name : String} {index : Nat}
    (h : a.variableIndex name = some index) (later : List (Change p δ)) :
    (changed later a).variableIndex name = some index := by
  induction later generalizing a with
  | nil => exact h
  | cons change later ih => exact ih (variableIndex_after_of_some h change)

/-- The arena that changes make of a new one. -/
def grown (changes : List (Change p δ)) : Arena p := changed changes Arena.empty

theorem grown_concat (changes : List (Change p δ)) (change : Change p δ) :
    grown (changes ++ [change]) = change.after (grown changes) := by
  simp [grown, changed]

theorem variableIndex_eq_none_iff (changes : List (Change p δ)) (name : String) :
    (grown changes).variableIndex name = none ↔
      ∀ value, .allocateOrReuse name value ∉ changes := by
  induction changes using List.reverseRecOn with
  | nil => simp [grown, changed, Arena.variableIndex, Arena.empty, findName]
  | append_singleton changes change ih =>
    rw [grown_concat, variableIndex_after]
    split
    · next hname =>
      obtain ⟨value, rfl⟩ := nameOf_eq_some_iff.mp hname
      simp only [returned, reduceCtorEq, false_iff, not_forall, not_not]
      exact ⟨value, by simp⟩
    · next hname =>
      rw [ih]
      refine forall_congr' fun value => ?_
      have hne : Change.allocateOrReuse name value ≠ change := by
        rintro rfl
        exact hname rfl
      simp [hne]

theorem allocates_iff {changes : List (Change p δ)} {change : Change p δ} {name : String}
    (h : nameOf change = some name) :
    Allocates changes change ↔ (grown changes).variableIndex name = none := by
  obtain ⟨value, rfl⟩ := nameOf_eq_some_iff.mp h
  exact (variableIndex_eq_none_iff changes name).symm

/-- The second arena has one slot more than the first. Nothing else differs but the name that the
new slot may have. -/
structure AddsSlot (value : Value p) (newName : Option String) (a b : Arena p) : Prop where
  memory : b.memory = a.memory ++ [value]
  rest : b = { a with memory := b.memory, namedSlots := b.namedSlots }
  names : ∀ name, b.variableIndex name =
    if newName = some name then some a.memory.length else a.variableIndex name

theorem addsSlot_of_allocates {changes : List (Change p δ)} {change : Change p δ}
    (h : Allocates changes change) :
    returned (grown changes) change = some (grown changes).memory.length ∧
      ∃ value, valueOf change = some value ∧
        AddsSlot value (nameOf change) (grown changes) (change.after (grown changes)) := by
  cases change with
  | allocate value => exact ⟨rfl, value, rfl, rfl, rfl, fun name => rfl⟩
  | allocateOrReuse name value =>
    have hnew := allocateOrReuse_new ((allocates_iff rfl).mp h) value
    have hreturned : returned (grown changes) (.allocateOrReuse name value : Change p δ) =
        some (grown changes).memory.length := by
      rw [returned, hnew]
    refine ⟨hreturned, value, rfl, ?_, ?_, fun other => ?_⟩
    · rw [Change.after, hnew]
    · rw [Change.after, hnew]
    · rw [variableIndex_after, hreturned]
  | _ => exact h.elim

theorem length_of_not_allocates {changes : List (Change p δ)} {change : Change p δ}
    (h : ¬Allocates changes change) :
    (change.after (grown changes)).memory.length = (grown changes).memory.length := by
  cases change with
  | allocate value => exact absurd trivial h
  | allocateOrReuse name value =>
    obtain ⟨index, hknown⟩ := Option.ne_none_iff_exists'.mp (mt (allocates_iff rfl).mpr h)
    rw [Change.after, allocateOrReuse_known hknown]
  | _ => exact (after_of_valueOf_eq_none rfl _).1

/-- The change at a place of a run adds a slot and returns its index. -/
def HandsOut (changes : List (Change p δ)) (position index : Nat) : Prop :=
  ∃ change, changes[position]? = some change ∧ Allocates (changes.take position) change ∧
    returned (grown (changes.take position)) change = some index

theorem handsOut_concat (changes : List (Change p δ)) (change : Change p δ) (position index : Nat) :
    HandsOut (changes ++ [change]) position index ↔
      HandsOut changes position index ∨ (position = changes.length ∧ Allocates changes change ∧
        returned (grown changes) change = some index) := by
  obtain hlt | rfl | hgt := Nat.lt_trichotomy position changes.length
  · have hne : position ≠ changes.length := Nat.ne_of_lt hlt
    have htake : (changes ++ [change]).take position = changes.take position :=
      List.take_append_of_le_length (Nat.le_of_lt hlt)
    simp only [HandsOut, List.getElem?_append_left hlt, htake, hne, false_and, or_false]
  · simp [HandsOut]
  · have hne : position ≠ changes.length := Nat.ne_of_gt hgt
    have hbehind : (changes ++ [change]).length ≤ position := by
      rw [List.length_append, List.length_singleton]
      exact hgt
    simp [HandsOut, List.getElem?_eq_none hbehind, List.getElem?_eq_none (Nat.le_of_lt hgt), hne]

/-- Exactly the slots of the arena have been handed out. -/
theorem lt_length_iff (changes : List (Change p δ)) (index : Nat) :
    index < (grown changes).memory.length ↔ ∃ position, HandsOut changes position index := by
  induction changes using List.reverseRecOn with
  | nil => simp [grown, changed, Arena.empty, HandsOut]
  | append_singleton changes change ih =>
    simp only [grown_concat, handsOut_concat, exists_or, exists_eq_left, ← ih]
    by_cases h : Allocates changes change
    · obtain ⟨hreturned, value, -, hadds⟩ := addsSlot_of_allocates h
      rw [hadds.memory, List.length_append, List.length_singleton, hreturned, Option.some.injEq]
      simp only [h, true_and]
      omega
    · rw [length_of_not_allocates h]
      simp only [h, false_and, or_false]

/-- No two changes hand out the same slot. -/
theorem HandsOut.position_eq {changes : List (Change p δ)} {position other index : Nat}
    (h : HandsOut changes position index) (h' : HandsOut changes other index) :
    position = other := by
  induction changes using List.reverseRecOn with
  | nil =>
    obtain ⟨change, hchange, -⟩ := h
    cases hchange
  | append_singleton changes change ih =>
    -- A slot that is old is within the arena, and the new one is right behind it.
    have hnew : ∀ {before}, HandsOut changes before index → Allocates changes change →
        returned (grown changes) change ≠ some index := by
      intro before hbefore hallocates hindex
      rw [(addsSlot_of_allocates hallocates).1, Option.some.injEq] at hindex
      have hlt := (lt_length_iff changes index).mpr ⟨before, hbefore⟩
      omega
    obtain hold | ⟨hplace, hallocates, hindex⟩ := (handsOut_concat ..).mp h
    · obtain hold' | ⟨-, hallocates, hindex⟩ := (handsOut_concat ..).mp h'
      · exact ih hold hold'
      · exact absurd hindex (hnew hold hallocates)
    · obtain hold' | ⟨hplace', -, -⟩ := (handsOut_concat ..).mp h'
      · exact absurd hindex (hnew hold' hallocates)
      · rw [hplace, hplace']

theorem HandsOut.lt_length {changes : List (Change p δ)} {position index : Nat}
    (h : HandsOut changes position index) : position < changes.length := by
  obtain ⟨change, hchange, -⟩ := h
  exact (List.getElem?_eq_some_iff.mp hchange).1

/-- A change with that name adds a slot and returns its index. -/
def HandsOutTo (changes : List (Change p δ)) (name : String) (index : Nat) : Prop :=
  ∃ position value, changes[position]? = some (.allocateOrReuse name value) ∧
    HandsOut changes position index

theorem handsOutTo_concat (changes : List (Change p δ)) (change : Change p δ) (name : String)
    (index : Nat) : HandsOutTo (changes ++ [change]) name index ↔
      HandsOutTo changes name index ∨ (nameOf change = some name ∧ Allocates changes change ∧
        returned (grown changes) change = some index) := by
  constructor
  · rintro ⟨position, value, hchange, hhands⟩
    obtain hold | ⟨rfl, hnew⟩ := (handsOut_concat ..).mp hhands
    · rw [List.getElem?_append_left hold.lt_length] at hchange
      exact .inl ⟨position, value, hchange, hold⟩
    · obtain rfl : change = .allocateOrReuse name value := by simpa using hchange
      exact .inr ⟨rfl, hnew⟩
  · rintro (⟨position, value, hchange, hhands⟩ | ⟨hname, hnew⟩)
    · refine ⟨position, value, ?_, (handsOut_concat ..).mpr (.inl hhands)⟩
      rwa [List.getElem?_append_left hhands.lt_length]
    · obtain ⟨value, rfl⟩ := nameOf_eq_some_iff.mp hname
      exact ⟨changes.length, value, by simp, (handsOut_concat ..).mpr (.inr ⟨rfl, hnew⟩)⟩

/-- A name has the slot that was handed out to the first call with that name. -/
theorem variableIndex_eq_some_iff (changes : List (Change p δ)) (name : String) (index : Nat) :
    (grown changes).variableIndex name = some index ↔ HandsOutTo changes name index := by
  induction changes using List.reverseRecOn with
  | nil => simp [grown, changed, Arena.variableIndex, Arena.empty, findName, HandsOutTo]
  | append_singleton changes change ih =>
    rw [grown_concat, handsOutTo_concat, ← ih]
    cases hold : (grown changes).variableIndex name with
    | some slot =>
      have hknown : ¬(nameOf change = some name ∧ Allocates changes change ∧
          returned (grown changes) change = some index) := by
        rintro ⟨hname, hallocates, -⟩
        rw [(allocates_iff hname).mp hallocates] at hold
        cases hold
      rw [variableIndex_after_of_some hold, or_iff_left hknown]
    | none =>
      rw [variableIndex_after, hold]
      by_cases hname : nameOf change = some name
      · simp [hname, (allocates_iff hname).mpr hold]
      · simp [hname]

/-- In an arena that was made by these changes no two calls share a slot, and no two names do. -/
structure Unaliased (changes : List (Change p δ)) (a : Arena p) : Prop where
  handedOut : ∀ index, index < a.memory.length ↔ ∃ position, HandsOut changes position index
  once : ∀ {position other index}, HandsOut changes position index →
    HandsOut changes other index → position = other
  named : ∀ name index, a.variableIndex name = some index ↔
    ∃ position value, changes[position]? = some (.allocateOrReuse name value) ∧
      HandsOut changes position index
  distinct : ∀ {name other index}, a.variableIndex name = some index →
    a.variableIndex other = some index → name = other
  lasting : ∀ {name index}, a.variableIndex name = some index → ∀ later : List (Change p δ),
    (changed later a).variableIndex name = some index ∧
      ∀ value, (changed later a).allocateOrReuse name value = (index, changed later a)
  adds : ∀ {change}, Allocates changes change → returned a change = some a.memory.length ∧
    ∃ value, valueOf change = some value ∧ AddsSlot value (nameOf change) a (change.after a)

/-- Whatever is done to a new arena, each of its slots was handed out by exactly one call, to no
name or to the first use of a single one, and names never share or change their slots. -/
theorem slots_never_alias (changes : List (Change p δ)) :
    Unaliased changes (changed changes (Arena.empty : Arena p)) where
  handedOut := lt_length_iff changes
  once h h' := h.position_eq h'
  named := variableIndex_eq_some_iff changes
  distinct h h' := by
    obtain ⟨position, value, hchange, hhands⟩ := (variableIndex_eq_some_iff changes _ _).mp h
    obtain ⟨other, value', hchange', hhands'⟩ := (variableIndex_eq_some_iff changes _ _).mp h'
    obtain rfl := hhands.position_eq hhands'
    rw [hchange, Option.some.injEq, Change.allocateOrReuse.injEq] at hchange'
    exact hchange'.1
  lasting h later := by
    have hlater := variableIndex_changed h later
    exact ⟨hlater, allocateOrReuse_known hlater⟩
  adds := addsSlot_of_allocates

end

end NeuronKernels.ArenaSlots
