import NeuronKernels.Proofs.JsonRoundTrip

/-!
# Refusing what was written

A reader may refuse a text that was laid out with the functions for writing. The first part that is
refused decides: a list or an object with such a part is refused for the same reason when everything
in front of the part can be read, whatever stands behind it.
-/

namespace NeuronKernels.JsonRefusals
open JsonReading JsonRoundTrip

/-- The reader refuses the text, behind blanks and in front of anything that ends a value. -/
structure Refuses {α : Type} (reader : Reader α) (text : List Char) (problem : Problem) : Prop where
  starts : Starts text
  refuses : ∀ {cs rest : List Char}, skipSpace cs = text ++ rest → Ends rest →
    reader cs = .error problem

variable {problem : Problem}

theorem Refuses.append {α : Type} {reader : Reader α} {text : List Char}
    (h : Refuses reader text problem) {rest : List Char} (hr : Ends rest) :
    reader (text ++ rest) = .error problem :=
  h.refuses (skipSpace_starts h.starts rest) hr

theorem Refuses.map {α β : Type} {reader : Reader α} {text : List Char}
    (h : Refuses reader text problem) (g : α → β) :
    Refuses (fun cs => (reader cs).map fun r => (g r.1, r.2)) text problem where
  starts := h.starts
  refuses hcs hr := by
    rw [h.refuses hcs hr]
    rfl

theorem refuses_document {α : Type} {reader : Reader α} {text : List Char}
    (h : Refuses reader text problem) :
    readDocument reader (String.ofList text) = .error problem := by
  have happend := h.append (show Ends [] from trivial)
  rw [List.append_nil] at happend
  simp only [readDocument, String.toList_ofList, happend, bind, Except.bind]

theorem readItems_error {α : Type} {item : Reader α} {fuel : Nat} {first : Bool} {out : List α}
    {cs here left : List Char} (h : nextItem ']' first cs = .ok (some here, left))
    (hi : item here = .error problem) :
    readItems item (fuel + 1) first out cs = .error problem := by
  simp only [readItems, h, hi, bind, Except.bind]

/-- A list is refused at the first of its items that is. -/
theorem refuses_list {α : Type} {item : Reader α} {texts : List (List Char)} {values : List α}
    {bad : List Char} (h : List.Forall₂ (Reads item) texts values)
    (hb : Refuses item bad problem) (more : List (List Char)) (depth : Nat) :
    Refuses (readList item) (JsonLayout.list depth (texts ++ bad :: more)) problem where
  starts := starts_block (by decide) depth ']' _
  refuses {cs rest} hcs _ := by
    obtain ⟨text, others, hitems, hstarts⟩ :
        ∃ text others, texts ++ bad :: more = text :: others ∧ Starts text := by
      cases h with
      | nil => exact ⟨bad, more, rfl, hb.starts⟩
      | @cons text value texts values hv hrest => exact ⟨text, _, rfl, hv.starts⟩
    rw [hitems] at hcs
    obtain ⟨fuel, hread⟩ := readList_list item hstarts depth others hcs
    have hfuel : (text :: others).length + (fuel + 1) =
        texts.length + (more.length + fuel + 1 + 1) := by
      rw [← hitems, List.length_append, List.length_cons]
      omega
    have hnext := nextItem_later closing_mark hb.starts depth more rest
    rw [hread, hfuel, ← hitems, readItems_closing h]
    exact readItems_error hnext (hb.append (ends_closing depth ']' more rest))

theorem readMembers_error {σ : Type} {member : String → σ → Except Problem (Reader σ)} {fuel : Nat}
    {first : Bool} {state : σ} {cs left rest value : List Char} {name : String} {reader : Reader σ}
    (h : nextItem closeBrace first cs = .ok (some (JsonLayout.member name value ++ rest), left))
    (hm : member name state = .ok reader)
    (hv : reader (' ' :: (value ++ rest)) = .error problem) :
    readMembers member (fuel + 1) first state cs = .error problem := by
  have hcolon : ∀ ds, readColon (':' :: ds) = .ok ds := fun _ => rfl
  rw [member_append] at h
  simp only [readMembers, h, bind, Except.bind, readTextBody_text, hm, hcolon, hv]

/-- An object is refused at the first of its members that is. -/
theorem refuses_folds {σ : Type} {member : String → σ → Except Problem (Reader σ)}
    {texts : List (List Char)} {s s' : σ} {name : String} {value : List Char} {reader : Reader σ}
    (h : Folds member texts s s') (key : member name s' = .ok reader)
    (hb : ∀ rest, Ends rest → reader (' ' :: (value ++ rest)) = .error problem)
    (more : List (List Char)) (expected : String) (depth : Nat) :
    Refuses (readObject expected member s)
      (JsonLayout.object depth (texts ++ JsonLayout.member name value :: more)) problem where
  starts := starts_block (by decide) depth _ _
  refuses {cs rest} hcs _ := by
    obtain ⟨text, others, hitems, hstarts⟩ :
        ∃ text others, texts ++ JsonLayout.member name value :: more = text :: others ∧
          Starts text := by
      cases texts with
      | nil => exact ⟨_, more, rfl, starts_member name value⟩
      | cons text texts => exact ⟨text, _, rfl, h.starts text (by simp)⟩
    rw [hitems] at hcs
    obtain ⟨fuel, hread⟩ := readObject_object expected member s hstarts depth others hcs
    have hfuel : (text :: others).length + (fuel + 1) =
        texts.length + (more.length + fuel + 1 + 1) := by
      rw [← hitems, List.length_append, List.length_cons]
      omega
    have hnext := nextItem_later closing_brace (starts_member name value) depth more rest
    rw [hread, hfuel, ← hitems, readMembers_closing h]
    exact readMembers_error hnext key (hb _ (ends_closing depth closeBrace more rest))

/-- A record is refused at the first of its fields that is. -/
theorem refuses_object {field state : Type} [DecidableEq field] {shape : Shape field state}
    {text : field → List Char} {set : state → field → state} (h : Distinct shape)
    {before after : List field} {f : field} (hfields : shape.fields = before ++ f :: after)
    (hreads : ∀ g ∈ before, ∀ s, Reads (shape.read g s) (text g) (set s g))
    (hb : ∀ s, Refuses (shape.read f s) (text f) problem) (start : state) (depth : Nat) :
    Refuses (shape.reader start)
      (JsonLayout.object depth (shape.fields.map (memberText shape text))) problem where
  starts := starts_block (by decide) depth _ _
  refuses {cs rest} hcs hr := by
    have hnodup := h.nodup
    rw [hfields, List.nodup_append] at hnodup
    obtain ⟨hbefore, -, hapart⟩ := hnodup
    have hmem : ∀ g ∈ before, g ∈ shape.fields := fun g hg => by
      rw [hfields]
      exact List.mem_append_left _ hg
    have hfolds := folds_fields h hmem hbefore hreads (fun g _ => List.not_mem_nil) start
    have hseen : f ∉ before.reverse ++ [] := by
      intro hf
      rw [List.append_nil, List.mem_reverse] at hf
      exact hapart f hf f List.mem_cons_self rfl
    have hf : f ∈ shape.fields := by simp [hfields]
    have hkey := member_name h hf hseen (before.foldl set start)
    have hvalue : ∀ rest, Ends rest →
        (shape.read f (before.foldl set start) (' ' :: (text f ++ rest))).map
          (fun r => ((r.1, f :: (before.reverse ++ [])), r.2)) = .error problem := by
      intro rest hr
      have hbad := hb (before.foldl set start)
      rw [hbad.refuses ((skipSpace_blank _).trans (skipSpace_starts hbad.starts rest)) hr]
      rfl
    have hrefuses := refuses_folds hfolds hkey hvalue (after.map (memberText shape text))
      shape.title depth
    have hmembers : shape.fields.map (memberText shape text) =
        before.map (memberText shape text) ++
          memberText shape text f :: after.map (memberText shape text) := by
      rw [hfields, List.map_append, List.map_cons]
    obtain ⟨more, hmore⟩ := object_opens depth (shape.fields.map (memberText shape text)) rest
    rw [reader_object shape start (hcs.trans hmore), hcs, hmembers]
    have hread := hrefuses.append hr
    rw [memberText, hread]
    rfl

end NeuronKernels.JsonRefusals
