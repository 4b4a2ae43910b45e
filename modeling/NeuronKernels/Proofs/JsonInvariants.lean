import NeuronKernels.JsonReading

/-!
# What readers give

A property that holds of the state of a record at the start, and that every member keeps, holds of
whatever is read in the end, from any text and in either form of a record (`gives_reader`).
-/

namespace NeuronKernels.JsonInvariants
open JsonReading

/-- Whatever the reader takes, what it gives has the property. -/
def Gives {α : Type} (reader : Reader α) (P : α → Prop) : Prop :=
  ∀ cs a rest, reader cs = .ok (a, rest) → P a

theorem gives_true {α : Type} (reader : Reader α) : Gives reader fun _ => True :=
  fun _ _ _ _ => trivial

theorem Gives.map {α β : Type} {reader : Reader α} {P : α → Prop} {Q : β → Prop} {g : α → β}
    (h : Gives reader P) (hg : ∀ a, P a → Q (g a)) :
    Gives (fun cs => (reader cs).map fun r => (g r.1, r.2)) Q := by
  intro cs b rest hb
  cases hr : reader cs with
  | error problem => simp [hr, Except.map] at hb
  | ok r =>
    obtain ⟨rfl, -⟩ : g r.1 = b ∧ r.2 = rest := by simpa [hr, Except.map] using hb
    exact hg r.1 (h cs r.1 r.2 hr)

theorem gives_members {σ : Type} {member : String → σ → Except Problem (Reader σ)} {P : σ → Prop}
    (hm : ∀ key s reader, P s → member key s = .ok reader → Gives reader P)
    (fuel : Nat) (first : Bool) {s : σ} (hs : P s) : Gives (readMembers member fuel first s) P := by
  induction fuel generalizing first s with
  | zero => exact nofun
  | succ fuel ih =>
    intro cs b rest hb
    simp only [readMembers, bind, Except.bind] at hb
    split at hb
    · cases hb
    · split at hb
      · cases hb
        exact hs
      · split at hb
        · cases hb
        · split at hb
          · cases hb
          · next reader hreader =>
            split at hb
            · cases hb
            · split at hb
              · cases hb
              · next r hr => exact ih false (hm _ _ reader hs hreader _ _ _ hr) _ b rest hb
      · cases hb

theorem gives_object {σ : Type} {member : String → σ → Except Problem (Reader σ)} {P : σ → Prop}
    (hm : ∀ key s reader, P s → member key s = .ok reader → Gives reader P)
    (expected : String) {start : σ} (hs : P start) :
    Gives (readObject expected member start) P := by
  intro cs b rest hb
  rw [readObject] at hb
  split at hb
  · cases hb
  · split at hb
    · exact gives_members hm _ true hs _ b rest hb
    · cases hb

section
variable {field state : Type} [DecidableEq field] {shape : Shape field state} {P : state → Prop}
  (hf : ∀ f s, P s → Gives (shape.read f s) P)
include hf

omit [DecidableEq field] in
theorem gives_positional (fs : List field) (index : Nat) {s : state} (hs : P s) :
    Gives (shape.readPositional fs index s) P := by
  induction fs generalizing index s with
  | nil =>
    intro cs b rest hb
    simp only [Shape.readPositional] at hb
    split at hb
    · cases hb
      exact hs
    · cases hb
  | cons f fs ih =>
    intro cs b rest hb
    simp only [Shape.readPositional, bind, Except.bind] at hb
    split at hb
    · cases hb
    · split at hb
      · split at hb
        · cases hb
        · cases hb
          exact hs
      · split at hb
        · cases hb
        · next r hr => exact ih (index + 1) (hf f s hs _ _ _ hr) _ b rest hb

theorem gives_member (key : String) (s : state × List field) (reader : Reader (state × List field))
    (hs : P s.1) (hr : shape.member key s = .ok reader) : Gives reader fun s => P s.1 := by
  rw [Shape.member] at hr
  split at hr
  · cases hr
    intro cs b rest hb
    cases hskip : skipValue cs with
    | error problem => simp [hskip, Except.map] at hb
    | ok more =>
      obtain ⟨rfl, -⟩ : s = b ∧ more = rest := by simpa [hskip, Except.map] using hb
      exact hs
  · next f _ =>
    split at hr
    · cases hr
    · cases hr
      exact (hf f s.1 hs).map (Q := fun (r : state × List field) => P r.1)
        (g := fun known => (known, f :: s.2)) fun _ h => h

/-- What every field keeps holds of the record as a whole. -/
theorem gives_reader {start : state} (hs : P start) : Gives (shape.reader start) P := by
  intro cs b rest hb
  rw [Shape.reader] at hb
  split at hb
  · exact gives_positional hf _ 0 hs _ b rest hb
  · simp only [bind, Except.bind] at hb
    split at hb
    · cases hb
    · next r hr =>
      have hstate := gives_object (P := fun (s : state × List field) => P s.1) (gives_member hf)
        shape.title hs _ _ _ hr
      split at hb
      · cases hb
      · cases hb
        exact hstate

end

theorem gives_document {α : Type} {reader : Reader α} {P : α → Prop} (h : Gives reader P)
    {text : String} {a : α} (ha : readDocument reader text = .ok a) : P a := by
  simp only [readDocument, bind, Except.bind] at ha
  split at ha
  · cases ha
  · next r hr =>
    split at ha
    · cases ha
      exact h _ _ _ hr
    · cases ha

end NeuronKernels.JsonInvariants
