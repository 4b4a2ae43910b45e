import Mathlib.Data.List.Forall2
import NeuronKernels.JsonLayout
import NeuronKernels.JsonReading

/-!
# Reading what was written

A reader gets back every value whose text was laid out with the functions for writing. A reader
cannot tell where a text ends but by what stands behind it, and behind a value there is always a
comma, a line break or nothing (`Ends`). With that, the statement for a list or a record follows
from the statements for its parts (`reads_list`, `reads_object`).
-/

namespace NeuronKernels.JsonRoundTrip
open JsonReading TextPieces

/-- What stands behind a value. -/
def Ends : List Char → Prop
  | [] => True
  | c :: _ => c = ',' ∨ c = '\n'

/-- The characters that no value starts with: blanks, commas and closing marks. -/
def between : List Char := [' ', '\n', '\t', '\r', ',', ']', closeBrace]

/-- The text starts with a character that a value may start with. -/
def Starts (text : List Char) : Prop := ∃ c cs, text = c :: cs ∧ c ∉ between

/-- The reader gets the value back from the text, behind blanks and in front of anything that ends a
value. -/
structure Reads {α : Type} (reader : Reader α) (text : List Char) (a : α) : Prop where
  starts : Starts text
  takes : ∀ {cs rest : List Char}, skipSpace cs = text ++ rest → Ends rest →
    reader cs = .ok (a, rest)

theorem skipSpace_cons {c : Char} (h : c ∉ between) (cs : List Char) :
    skipSpace (c :: cs) = c :: cs := by
  have hblank : ¬ (c = ' ' ∨ c = '\n' ∨ c = '\t' ∨ c = '\r') := by
    simp only [between, List.mem_cons, not_or] at h ⊢
    exact ⟨h.1, h.2.1, h.2.2.1, h.2.2.2.1⟩
  rw [skipSpace, if_neg hblank]

theorem skipSpace_starts {text : List Char} (h : Starts text) (rest : List Char) :
    skipSpace (text ++ rest) = text ++ rest := by
  obtain ⟨c, cs, rfl, hc⟩ := h
  exact skipSpace_cons hc (cs ++ rest)

theorem skipSpace_blank (cs : List Char) : skipSpace (' ' :: cs) = skipSpace cs := rfl

theorem skipSpace_newLine (depth : Nat) (cs : List Char) :
    skipSpace (JsonLayout.newLine depth ++ cs) = skipSpace cs := by
  have hblanks : ∀ count, skipSpace (List.replicate count ' ' ++ cs) = skipSpace cs := by
    intro count
    induction count with
    | zero => rfl
    | succ count ih => exact ih
  exact hblanks (2 * depth)

theorem Reads.append {α : Type} {reader : Reader α} {text : List Char} {a : α}
    (h : Reads reader text a) {rest : List Char} (hr : Ends rest) :
    reader (text ++ rest) = .ok (a, rest) :=
  h.takes (skipSpace_starts h.starts rest) hr

theorem hexValue_hexDigit : ∀ n < 16, hexValue (JsonLayout.hexDigit n) = some n := by
  decide

theorem readTextFrom_number (high low : Nat) (hh : high < 16) (hl : low < 16)
    (h : high * 16 + low < 0x20) (out cs : List Char) :
    readTextFrom .plain out
        (['\\', 'u', '0', '0', JsonLayout.hexDigit high, JsonLayout.hexDigit low] ++ cs) =
      readTextFrom .plain (Char.ofNat (high * 16 + low) :: out) cs := by
  have hplain : ¬ (0xDC00 ≤ high * 16 + low ∧ high * 16 + low ≤ 0xDFFF) := by omega
  have hpair : ¬ (0xD800 ≤ high * 16 + low ∧ high * 16 + low ≤ 0xDBFF) := by omega
  simp [readTextFrom, afterNumber, hexValue_hexDigit high hh, hexValue_hexDigit low hl,
    show hexValue '0' = some 0 from rfl, hplain, hpair]

theorem readTextFrom_escaped (c : Char) (out cs : List Char) :
    readTextFrom .plain out (JsonLayout.escapedChar c ++ cs) =
      readTextFrom .plain (c :: out) cs := by
  have hc : Char.ofNat c.toNat = c := Char.ofNat_toNat c
  -- the cases follow the writer; the last two are the number and the character itself
  rw [JsonLayout.escapedChar]
  by_cases hquote : c = '"'
  · rw [if_pos hquote, hquote]
    rfl
  rw [if_neg hquote]
  by_cases hslash : c = '\\'
  · rw [if_pos hslash, hslash]
    rfl
  rw [if_neg hslash]
  by_cases hcontrol : c.toNat < 0x20
  · rw [if_pos hcontrol]
    by_cases h8 : c.toNat = 8
    · rw [if_pos h8, ← hc, h8]
      rfl
    rw [if_neg h8]
    by_cases h9 : c.toNat = 9
    · rw [if_pos h9, ← hc, h9]
      rfl
    rw [if_neg h9]
    by_cases h10 : c.toNat = 10
    · rw [if_pos h10, ← hc, h10]
      rfl
    rw [if_neg h10]
    by_cases h12 : c.toNat = 12
    · rw [if_pos h12, ← hc, h12]
      rfl
    rw [if_neg h12]
    by_cases h13 : c.toNat = 13
    · rw [if_pos h13, ← hc, h13]
      rfl
    rw [if_neg h13]
    have hparts : c.toNat / 16 * 16 + c.toNat % 16 = c.toNat := by omega
    have hread := readTextFrom_number (c.toNat / 16) (c.toNat % 16) (by omega) (by omega)
      (by omega) out cs
    rw [hread, hparts, hc]
  · rw [if_neg hcontrol, List.singleton_append, readTextFrom, if_neg hquote, if_neg hslash,
      if_neg hcontrol]

theorem readTextFrom_flatMap (text out rest : List Char) :
    readTextFrom .plain out (text.flatMap JsonLayout.escapedChar ++ '"' :: rest) =
      .ok (out.reverse ++ text, rest) := by
  induction text generalizing out with
  | nil => simp [readTextFrom]
  | cons c text ih =>
    rw [List.flatMap_cons, List.append_assoc, readTextFrom_escaped, ih]
    simp

theorem readTextBody_text (s : String) (rest : List Char) :
    readTextBody (s.toList.flatMap JsonLayout.escapedChar ++ '"' :: rest) = .ok (s, rest) := by
  rw [readTextBody, readTextFrom_flatMap]
  simp [Except.map]

theorem text_append (s : String) (rest : List Char) :
    JsonLayout.text s ++ rest =
      '"' :: (s.toList.flatMap JsonLayout.escapedChar ++ '"' :: rest) := by
  simp [JsonLayout.text]

theorem reads_text (s : String) : Reads readText (JsonLayout.text s) s where
  starts := ⟨'"', _, rfl, by decide⟩
  takes {cs rest} hcs _ := by
    rw [readText, hcs, text_append]
    exact readTextBody_text s rest

theorem isDigit_of_mem_number {n : Nat} {c : Char} (h : c ∈ JsonLayout.number n) :
    isDigit c = true := isDigit_of_mem_toDigits h

theorem digitsFrom_number (n : Nat) : digitsFrom 0 (JsonLayout.number n) = n :=
  digitsFrom_toDigits n

theorem le_digitsFrom (ds : List Char) (n : Nat) : n ≤ digitsFrom n ds := by
  induction ds generalizing n with
  | nil => exact Nat.le_refl n
  | cons d ds ih =>
    have hrest : n * 10 + digitValue d ≤ digitsFrom n (d :: ds) := ih _
    omega

/-- All digits are taken when the number fits. -/
theorem takeDigits_append {ds rest : List Char} {n : Nat} (hd : ∀ c ∈ ds, isDigit c = true)
    (hn : digitsFrom n ds < wordLimit) (hr : startsWithDigit rest = false) (taken : Nat) :
    takeDigits n taken (ds ++ rest) = (digitsFrom n ds, taken + ds.length, rest) := by
  induction ds generalizing n taken with
  | nil =>
    cases rest with
    | nil => rfl
    | cons c rest =>
      have hc : isDigit c = false := hr
      simp [takeDigits, hc, digitsFrom]
  | cons d ds ih =>
    have hdigit := hd d (by simp)
    have hrest : digitsFrom (n * 10 + digitValue d) ds < wordLimit := hn
    have hfits : n * 10 + digitValue d < wordLimit :=
      Nat.lt_of_le_of_lt (le_digitsFrom ds _) hrest
    have hmore := ih (fun c hc => hd c (by simp [hc])) hrest (taken + 1)
    rw [List.cons_append, takeDigits, if_pos ⟨hdigit, hfits⟩, hmore]
    simp [digitsFrom, Nat.add_assoc, Nat.add_comm 1]

/-- Only zero starts with a zero. -/
theorem number_head {n : Nat} {cs : List Char} (h : JsonLayout.number n = '0' :: cs) :
    n = 0 ∧ cs = [] := by
  induction n using Nat.strongRecOn generalizing cs with
  | ind n ih =>
    rw [JsonLayout.number, Nat.toDigits_eq_if (by decide)] at h
    split at h
    · obtain ⟨hc, rfl⟩ := List.cons.inj h
      exact ⟨Nat.digitChar_eq_zero.mp hc, rfl⟩
    · next hn =>
      cases ht : Nat.toDigits 10 (n / 10) with
      | nil => exact absurd ht Nat.toDigits_ne_nil
      | cons d ds =>
        rw [ht] at h
        obtain ⟨rfl, -⟩ := List.cons.inj h
        have hzero : n / 10 = 0 := (ih (n / 10) (by omega) ht).1
        omega

theorem not_startsWithDigit {rest : List Char} (h : Ends rest) : startsWithDigit rest = false := by
  cases rest with
  | nil => rfl
  | cons c rest =>
    obtain rfl | rfl := h
    · rfl
    · rfl

theorem readAfterWhole_ends {rest : List Char} (h : Ends rest) (n : Nat) :
    readAfterWhole false n 0 rest = .ok (.natural n, rest) := by
  cases rest with
  | nil => rfl
  | cons c rest =>
    obtain rfl | rfl := h
    · rfl
    · rfl

theorem readUnsignedNumber_number {n : Nat} (hn : n < wordLimit) {rest : List Char}
    (hr : Ends rest) :
    readUnsignedNumber false (JsonLayout.number n ++ rest) = .ok (.natural n, rest) := by
  have hstop := not_startsWithDigit hr
  have hdigits : ∀ c ∈ JsonLayout.number n, isDigit c = true := fun c => isDigit_of_mem_number
  have hfits : digitsFrom 0 (JsonLayout.number n) < wordLimit := by rwa [digitsFrom_number]
  have htake := takeDigits_append hdigits hfits hstop 0
  have hnone : rest.takeWhile isDigit = [] ∧ rest.dropWhile isDigit = rest := by
    cases rest with
    | nil => exact ⟨rfl, rfl⟩
    | cons c rest =>
      have hc : isDigit c = false := hstop
      simp [hc]
  cases hnumber : JsonLayout.number n with
  | nil => exact absurd hnumber Nat.toDigits_ne_nil
  | cons c cs =>
    rw [hnumber] at htake hdigits
    rw [List.cons_append, readUnsignedNumber]
    by_cases hc : c = '0'
    · obtain ⟨rfl, rfl⟩ := number_head (hc ▸ hnumber)
      rw [if_pos hc, List.nil_append, hstop]
      exact readAfterWhole_ends hr 0
    · rw [if_neg hc, if_pos (hdigits c (by simp))]
      rw [← List.cons_append, htake, ← hnumber, digitsFrom_number]
      simp only [hnone]
      exact readAfterWhole_ends hr n

theorem isDigit_head (n : Nat) (rest : List Char) :
    ∃ c cs, JsonLayout.number n ++ rest = c :: cs ∧ isDigit c = true := by
  cases hnumber : JsonLayout.number n with
  | nil => exact absurd hnumber Nat.toDigits_ne_nil
  | cons c cs => exact ⟨c, cs ++ rest, rfl, isDigit_of_mem_number (n := n) (by simp [hnumber])⟩

theorem not_mem_between {c : Char} (h : isDigit c = true) : c ∉ between := by
  intro hc
  simp only [between, List.mem_cons, List.not_mem_nil, or_false] at hc
  obtain rfl | rfl | rfl | rfl | rfl | rfl | rfl := hc <;> cases h

theorem reads_number {n : Nat} (hn : n < wordLimit) (expected : String) :
    Reads (readNat expected) (JsonLayout.number n) n where
  starts := by
    obtain ⟨c, cs, hcs, hc⟩ := isDigit_head n []
    rw [List.append_nil] at hcs
    exact ⟨c, cs, hcs, not_mem_between hc⟩
  takes {cs rest} hcs hr := by
    obtain ⟨c, ds, hds, hc⟩ := isDigit_head n rest
    have hread := readUnsignedNumber_number hn hr
    have hsign : c ≠ '-' := by
      rintro rfl
      cases hc
    rw [hds] at hcs hread
    have hnumber : readNumber (c :: ds) = .ok (.natural n, rest) := by
      rw [readNumber]
      · exact hread
      · rintro _ ⟨⟩
        exact hsign rfl
    simp only [readNat, hcs, startsNumber, hc, Bool.or_true, if_true, hnumber]

/-- The text behind the first items of a block: those that follow, and the closing mark on a line of
its own. -/
def closing (depth : Nat) (mark : Char) (items : List (List Char)) (rest : List Char) :
    List Char :=
  items.flatMap (fun item => ',' :: (JsonLayout.newLine (depth + 1) ++ item)) ++
    (JsonLayout.newLine depth ++ mark :: rest)

theorem lines_cons (depth : Nat) (item : List Char) (items : List (List Char)) :
    JsonLayout.lines depth (item :: items) =
      JsonLayout.newLine depth ++ item ++
        items.flatMap fun item => ',' :: (JsonLayout.newLine depth ++ item) := by
  induction items generalizing item with
  | nil => simp [JsonLayout.lines]
  | cons next items ih =>
    rw [JsonLayout.lines, ih]
    simp

theorem block_nil (depth : Nat) (opening mark : Char) (rest : List Char) :
    JsonLayout.block depth opening mark [] ++ rest = opening :: mark :: rest := rfl

theorem block_cons (depth : Nat) (opening mark : Char) (item : List Char)
    (items : List (List Char)) (rest : List Char) :
    JsonLayout.block depth opening mark (item :: items) ++ rest =
      opening :: (JsonLayout.newLine (depth + 1) ++ (item ++ closing depth mark items rest)) := by
  simp [JsonLayout.block, lines_cons, closing]

theorem starts_block {opening : Char} (h : opening ∉ between) (depth : Nat) (mark : Char)
    (items : List (List Char)) : Starts (JsonLayout.block depth opening mark items) := by
  cases items with
  | nil => exact ⟨opening, [mark], rfl, h⟩
  | cons item items =>
    have hblock := block_cons depth opening mark item items []
    rw [List.append_nil] at hblock
    exact ⟨opening, _, hblock, h⟩

theorem ends_closing (depth : Nat) (mark : Char) (items : List (List Char)) (rest : List Char) :
    Ends (closing depth mark items rest) := by
  cases items with
  | nil => exact .inr rfl
  | cons item items => exact .inl rfl

section
variable {mark : Char} (hm : mark ∈ [']', closeBrace])
include hm

theorem ne_mark {c : Char} (hc : c ∉ between) : c ≠ mark := by
  rintro rfl
  simp only [List.mem_cons, List.not_mem_nil, or_false] at hm
  obtain rfl | rfl := hm
  · exact hc (by decide)
  · exact hc (by decide)

theorem skipSpace_mark (cs : List Char) : skipSpace (mark :: cs) = mark :: cs := by
  simp only [List.mem_cons, List.not_mem_nil, or_false] at hm
  obtain rfl | rfl := hm
  · rfl
  · rfl

theorem nextItem_closed (first : Bool) (depth : Nat) (rest : List Char) :
    nextItem mark first (closing depth mark [] rest) = .ok (none, rest) := by
  rw [closing, List.flatMap_nil, List.nil_append, nextItem, skipSpace_newLine,
    skipSpace_mark hm]
  simp

theorem nextItem_empty (rest : List Char) :
    nextItem mark true (mark :: rest) = .ok (none, rest) := by
  rw [nextItem, skipSpace_mark hm]
  simp

theorem nextItem_first {item : List Char} (hi : Starts item) (depth : Nat) (rest : List Char) :
    nextItem mark true (JsonLayout.newLine depth ++ (item ++ rest)) =
      .ok (some (item ++ rest), []) := by
  obtain ⟨c, cs, rfl, hc⟩ := hi
  have hne := ne_mark hm hc
  rw [nextItem, skipSpace_newLine, List.cons_append, skipSpace_cons hc]
  simp [hne]

theorem nextItem_later {item : List Char} (hi : Starts item) (depth : Nat)
    (items : List (List Char)) (rest : List Char) :
    nextItem mark false (closing depth mark (item :: items) rest) =
      .ok (some (item ++ closing depth mark items rest), []) := by
  obtain ⟨c, cs, rfl, hc⟩ := hi
  have hne := ne_mark hm hc
  have hcomma : ',' ≠ mark := by
    rintro rfl
    revert hm
    decide
  have hcons : closing depth mark ((c :: cs) :: items) rest =
      ',' :: (JsonLayout.newLine (depth + 1) ++ (c :: cs ++ closing depth mark items rest)) := by
    simp [closing]
  have hblank : ∀ ds, skipSpace (',' :: ds) = ',' :: ds := fun _ => rfl
  rw [nextItem, hcons, hblank]
  simp only [hcomma, if_false, Bool.false_eq_true, if_true]
  rw [skipSpace_newLine, List.cons_append, skipSpace_cons hc]
  simp [hne]

end

theorem closing_mark : ']' ∈ [']', closeBrace] := by simp

theorem closing_brace : closeBrace ∈ [']', closeBrace] := by simp

theorem readItems_none {α : Type} {item : Reader α} {fuel : Nat} {first : Bool} {out : List α}
    {cs rest : List Char} (h : nextItem ']' first cs = .ok (none, rest)) :
    readItems item (fuel + 1) first out cs = .ok (out.reverse, rest) := by
  simp only [readItems, h, bind, Except.bind, pure, Except.pure]

theorem readItems_some {α : Type} {item : Reader α} {fuel : Nat} {first : Bool} {out : List α}
    {cs here left rest : List Char} {a : α} (h : nextItem ']' first cs = .ok (some here, left))
    (hi : item here = .ok (a, rest)) :
    readItems item (fuel + 1) first out cs = readItems item fuel false (a :: out) rest := by
  simp only [readItems, h, hi, bind, Except.bind]

/-- The first item is read like one behind a comma. -/
theorem readItems_first {α : Type} (item : Reader α) (fuel : Nat) {text : List Char}
    (ht : Starts text) (depth : Nat) (texts : List (List Char)) (rest : List Char) :
    readItems item fuel true [] (JsonLayout.newLine (depth + 1) ++
        (text ++ closing depth ']' texts rest)) =
      readItems item fuel false [] (closing depth ']' (text :: texts) rest) := by
  cases fuel with
  | zero => rfl
  | succ fuel =>
    simp only [readItems, nextItem_first closing_mark ht, nextItem_later closing_mark ht]

/-- Items that can be read are read, whatever follows them. -/
theorem readItems_closing {α : Type} {item : Reader α} {texts : List (List Char)}
    {values : List α} (h : List.Forall₂ (Reads item) texts values) (fuel depth : Nat)
    (out : List α) (more : List (List Char)) (rest : List Char) :
    readItems item (texts.length + fuel) false out (closing depth ']' (texts ++ more) rest) =
      readItems item fuel false (values.reverse ++ out) (closing depth ']' more rest) := by
  induction h generalizing out with
  | nil => simp
  | @cons text value texts values hv hrest ih =>
    have hnext := nextItem_later closing_mark hv.starts depth (texts ++ more) rest
    have hread := hv.append (ends_closing depth ']' (texts ++ more) rest)
    have hfuel : (text :: texts).length + fuel = texts.length + fuel + 1 := by
      rw [List.length_cons]
      omega
    rw [hfuel, List.cons_append, readItems_some hnext hread, ih]
    simp

/-- What stands behind the opening bracket is long enough for its items. -/
theorem length_le_closing (depth : Nat) (mark : Char) (items : List (List Char))
    (rest : List Char) : items.length < (closing depth mark items rest).length := by
  induction items with
  | nil => simp [closing, JsonLayout.newLine]
  | cons item items ih =>
    simp only [closing, List.flatMap_cons, List.length_append, List.length_cons] at ih ⊢
    omega

/-- What a list of items comes to, once its bracket is open. -/
theorem readList_list {α : Type} (item : Reader α) {text : List Char} (ht : Starts text)
    (depth : Nat) (texts : List (List Char)) {cs rest : List Char}
    (hcs : skipSpace cs = JsonLayout.list depth (text :: texts) ++ rest) :
    ∃ fuel, readList item cs =
      readItems item ((text :: texts).length + (fuel + 1)) false []
        (closing depth ']' (text :: texts) rest) := by
  have hlength := length_le_closing depth ']' texts rest
  obtain ⟨fuel, hfuel⟩ := Nat.exists_eq_add_of_lt hlength
  rw [JsonLayout.list, block_cons] at hcs
  refine ⟨fuel + (JsonLayout.newLine (depth + 1)).length + text.length, ?_⟩
  rw [readList, hcs, ← readItems_first item _ ht]
  simp only
  congr 1
  simp only [List.length_append, List.length_cons, hfuel]
  omega

/-- A list of values that can be read back can be read back. -/
theorem reads_list {α : Type} {item : Reader α} {texts : List (List Char)} {values : List α}
    (h : List.Forall₂ (Reads item) texts values) (depth : Nat) :
    Reads (readList item) (JsonLayout.list depth texts) values where
  starts := starts_block (by decide) depth ']' texts
  takes {cs rest} hcs _ := by
    cases texts with
    | nil =>
      cases h
      rw [readList, hcs, JsonLayout.list, block_nil]
      exact readItems_none (nextItem_empty closing_mark rest)
    | cons text texts =>
      have hstarts : Starts text := by
        cases h with
        | cons hv _ => exact hv.starts
      obtain ⟨fuel, hread⟩ := readList_list item hstarts depth texts hcs
      have hitems := readItems_closing h (fuel + 1) depth [] [] rest
      rw [List.append_nil] at hitems
      rw [hread, hitems, readItems_none (nextItem_closed closing_mark false depth rest)]
      simp

/-- The texts of items that each give a value. -/
theorem forall₂_reads {α β : Type} {item : Reader β} {text : α → List Char} {g : α → β}
    {items : List α} (h : ∀ a ∈ items, Reads item (text a) (g a)) :
    List.Forall₂ (Reads item) (items.map text) (items.map g) := by
  induction items with
  | nil => exact .nil
  | cons a items ih => exact .cons (h a (by simp)) (ih fun b hb => h b (by simp [hb]))

theorem reads_items {α : Type} {item : Reader α} {text : α → List Char} {items : List α}
    (h : ∀ a ∈ items, Reads item (text a) a) (depth : Nat) :
    Reads (readList item) (JsonLayout.list depth (items.map text)) items := by
  have hitems := forall₂_reads (g := id) h
  rw [List.map_id] at hitems
  exact reads_list hitems depth

theorem readMembers_none {σ : Type} {member : String → σ → Except Problem (Reader σ)} {fuel : Nat}
    {first : Bool} {state : σ} {cs rest : List Char}
    (h : nextItem closeBrace first cs = .ok (none, rest)) :
    readMembers member (fuel + 1) first state cs = .ok (state, rest) := by
  simp only [readMembers, h, bind, Except.bind, pure, Except.pure]

theorem member_append (name : String) (value rest : List Char) :
    JsonLayout.member name value ++ rest =
      '"' :: (name.toList.flatMap JsonLayout.escapedChar ++ '"' :: ':' :: ' ' ::
        (value ++ rest)) := by
  simp [JsonLayout.member, JsonLayout.text]

theorem starts_member (name : String) (value : List Char) :
    Starts (JsonLayout.member name value) := ⟨'"', _, rfl, by decide⟩

theorem readMembers_some {σ : Type} {member : String → σ → Except Problem (Reader σ)} {fuel : Nat}
    {first : Bool} {state state' : σ} {cs left rest value : List Char} {name : String}
    {reader : Reader σ}
    (h : nextItem closeBrace first cs = .ok (some (JsonLayout.member name value ++ rest), left))
    (hm : member name state = .ok reader)
    (hv : reader (' ' :: (value ++ rest)) = .ok (state', rest)) :
    readMembers member (fuel + 1) first state cs = readMembers member fuel false state' rest := by
  have hcolon : ∀ ds, readColon (':' :: ds) = .ok ds := fun _ => rfl
  rw [member_append] at h
  simp only [readMembers, h, bind, Except.bind, readTextBody_text, hm, hcolon, hv]

theorem object_eq (depth : Nat) (members : List (List Char)) :
    JsonLayout.object depth members =
      JsonLayout.block depth (Char.ofNat 0x7b) closeBrace members := rfl

theorem object_opens (depth : Nat) (members : List (List Char)) (rest : List Char) :
    ∃ more, JsonLayout.object depth members ++ rest = Char.ofNat 0x7b :: more := by
  cases members with
  | nil => exact ⟨_, rfl⟩
  | cons member members =>
    rw [object_eq, block_cons]
    exact ⟨_, rfl⟩

/-- The first member is read like one behind a comma. -/
theorem readMembers_first {σ : Type} (member : String → σ → Except Problem (Reader σ)) (fuel : Nat)
    (s : σ) {text : List Char} (ht : Starts text) (depth : Nat) (texts : List (List Char))
    (rest : List Char) :
    readMembers member fuel true s (JsonLayout.newLine (depth + 1) ++
        (text ++ closing depth closeBrace texts rest)) =
      readMembers member fuel false s (closing depth closeBrace (text :: texts) rest) := by
  cases fuel with
  | zero => rfl
  | succ fuel =>
    simp only [readMembers, nextItem_first closing_brace ht, nextItem_later closing_brace ht]

/-- Members that take a state to another one, each with a value that its reader takes. -/
inductive Folds {σ : Type} (member : String → σ → Except Problem (Reader σ)) :
    List (List Char) → σ → σ → Prop
  | nil (s : σ) : Folds member [] s s
  | cons {name : String} {value : List Char} {texts : List (List Char)} {s s' s'' : σ}
    {reader : Reader σ} (key : member name s = .ok reader)
    (takes : ∀ rest, Ends rest → reader (' ' :: (value ++ rest)) = .ok (s', rest))
    (tail : Folds member texts s' s'') : Folds member (JsonLayout.member name value :: texts) s s''

section
variable {σ : Type} {member : String → σ → Except Problem (Reader σ)} {texts : List (List Char)}
  {s s' : σ}

theorem Folds.starts (h : Folds member texts s s') : ∀ text ∈ texts, Starts text := by
  induction h with
  | nil s => exact nofun
  | cons key takes tail ih =>
    intro text htext
    obtain rfl | htext := List.mem_cons.mp htext
    · exact starts_member _ _
    · exact ih text htext

/-- Members that can be read are read, whatever follows them. -/
theorem readMembers_closing (h : Folds member texts s s') (fuel depth : Nat)
    (more : List (List Char)) (rest : List Char) :
    readMembers member (texts.length + fuel) false s
        (closing depth closeBrace (texts ++ more) rest) =
      readMembers member fuel false s' (closing depth closeBrace more rest) := by
  induction h with
  | nil s => simp
  | @cons name value texts s s' s'' reader key takes tail ih =>
    have hnext := nextItem_later closing_brace (starts_member name value) depth (texts ++ more) rest
    have hread := takes _ (ends_closing depth closeBrace (texts ++ more) rest)
    have hfuel : (JsonLayout.member name value :: texts).length + fuel =
        texts.length + fuel + 1 := by
      rw [List.length_cons]
      omega
    rw [hfuel, List.cons_append, readMembers_some hnext key hread, ih]

/-- What an object of members comes to, once its brace is open. -/
theorem readObject_object (expected : String) (member : String → σ → Except Problem (Reader σ))
    (start : σ) {text : List Char} (ht : Starts text) (depth : Nat) (texts : List (List Char))
    {cs rest : List Char} (hcs : skipSpace cs = JsonLayout.object depth (text :: texts) ++ rest) :
    ∃ fuel, readObject expected member start cs =
      readMembers member ((text :: texts).length + (fuel + 1)) false start
        (closing depth closeBrace (text :: texts) rest) := by
  have hmark : (Char.ofNat 0x7b).toNat = 0x7b := rfl
  have hlength := length_le_closing depth closeBrace texts rest
  obtain ⟨fuel, hfuel⟩ := Nat.exists_eq_add_of_lt hlength
  rw [object_eq, block_cons] at hcs
  refine ⟨fuel + (JsonLayout.newLine (depth + 1)).length + text.length, ?_⟩
  rw [readObject, hcs, ← readMembers_first member _ start ht]
  simp only [hmark, if_true]
  congr 1
  simp only [List.length_append, List.length_cons, hfuel]
  omega

theorem readObject_folds (h : Folds member texts s s') (expected : String) (depth : Nat)
    {cs rest : List Char} (hcs : skipSpace cs = JsonLayout.object depth texts ++ rest) :
    readObject expected member s cs = .ok (s', rest) := by
  cases texts with
  | nil =>
    have hmark : (Char.ofNat 0x7b).toNat = 0x7b := rfl
    cases h
    rw [object_eq, block_nil] at hcs
    rw [readObject, hcs]
    simp only [hmark, if_true]
    exact readMembers_none (nextItem_empty closing_brace rest)
  | cons text texts =>
    obtain ⟨fuel, hread⟩ := readObject_object expected member s (h.starts text (by simp)) depth
      texts hcs
    have hmembers := readMembers_closing h (fuel + 1) depth [] rest
    rw [List.append_nil] at hmembers
    rw [hread, hmembers]
    exact readMembers_none (nextItem_closed closing_brace false depth rest)

/-- An object that its members fold into a state can be read back. -/
theorem reads_folds (h : Folds member texts s s') (expected : String) (depth : Nat) :
    Reads (readObject expected member s) (JsonLayout.object depth texts) s' where
  starts := starts_block (by decide) depth _ texts
  takes hcs _ := readObject_folds h expected depth hcs

end

def memberText {field state : Type} (shape : Shape field state) (text : field → List Char)
    (f : field) : List Char := JsonLayout.member (shape.name f) (text f)

/-- A text with an open brace is read as an object. -/
theorem reader_object {field state : Type} [DecidableEq field] (shape : Shape field state)
    (start : state) {cs more : List Char} (hcs : skipSpace cs = Char.ofNat 0x7b :: more) :
    shape.reader start cs =
      (readObject shape.title shape.member (start, []) (skipSpace cs)).bind fun r =>
        match shape.firstMissing r.1.2 with
        | some f => .error (.missingField (shape.name f))
        | none => .ok (r.1.1, r.2) := by
  rw [Shape.reader, hcs]
  split
  · next heq =>
    obtain ⟨hc, -⟩ := List.cons.inj heq
    exact absurd hc (by decide)
  · rfl

/-- The fields of a record have different names and are listed once. -/
structure Distinct {field state : Type} (shape : Shape field state) : Prop where
  names : ∀ f ∈ shape.fields, ∀ g ∈ shape.fields, shape.name f = shape.name g → f = g
  nodup : shape.fields.Nodup

/-- Each field of a record can be read back from its text: `set` is what the field adds to what is
known. -/
structure Matches {field state : Type} (shape : Shape field state) (text : field → List Char)
    (set : state → field → state) : Prop extends Distinct shape where
  reads : ∀ f ∈ shape.fields, ∀ s, Reads (shape.read f s) (text f) (set s f)

section
variable {field state : Type} [DecidableEq field] {shape : Shape field state}
  {text : field → List Char} {set : state → field → state} (h : Distinct shape)
include h

omit [DecidableEq field] in
theorem find_name {f : field} (hf : f ∈ shape.fields) :
    shape.fields.find? (fun g => shape.name g == shape.name f) = some f := by
  cases hfind : shape.fields.find? (fun g => shape.name g == shape.name f) with
  | none =>
    have hnone := List.find?_eq_none.mp hfind f hf
    simp at hnone
  | some g =>
    have hname : shape.name g = shape.name f := by simpa using List.find?_some hfind
    rw [h.names g (List.mem_of_find?_eq_some hfind) f hf hname]

/-- A field that was not seen before is read with its own reader. -/
theorem member_name {f : field} (hf : f ∈ shape.fields) {seen : List field} (hs : f ∉ seen)
    (s : state) :
    shape.member (shape.name f) (s, seen) =
      .ok fun cs => (shape.read f s cs).map fun r => ((r.1, f :: seen), r.2) := by
  rw [Shape.member, find_name h hf]
  simp only [hs, if_false]

/-- The fields of a record, one after the other, are seen and set. -/
theorem folds_fields {fs : List field} (hfs : ∀ f ∈ fs, f ∈ shape.fields) (hnodup : fs.Nodup)
    (hreads : ∀ f ∈ fs, ∀ s, Reads (shape.read f s) (text f) (set s f))
    {seen : List field} (hseen : ∀ f ∈ fs, f ∉ seen) (s : state) :
    Folds shape.member (fs.map (memberText shape text)) (s, seen)
      (fs.foldl set s, fs.reverse ++ seen) := by
  induction fs generalizing seen s with
  | nil => exact .nil _
  | cons f fs ih =>
    obtain ⟨hnot, hnodup⟩ := List.nodup_cons.mp hnodup
    have hmore : ∀ g ∈ fs, g ∉ f :: seen := by
      intro g hg hmem
      obtain rfl | hmem := List.mem_cons.mp hmem
      · exact hnot hg
      · exact hseen g (by simp [hg]) hmem
    have hread := hreads f (by simp) s
    have htakes : ∀ rest, Ends rest →
        (shape.read f s (' ' :: (text f ++ rest))).map (fun r => ((r.1, f :: seen), r.2)) =
          .ok ((set s f, f :: seen), rest) := by
      intro rest hr
      rw [hread.takes ((skipSpace_blank _).trans (skipSpace_starts hread.starts rest)) hr]
      rfl
    have htail := ih (fun g hg => hfs g (by simp [hg])) hnodup
      (fun g hg => hreads g (by simp [hg])) hmore (set s f)
    have hseen' : (f :: fs).reverse ++ seen = fs.reverse ++ f :: seen := by simp
    rw [hseen']
    exact .cons (member_name h (hfs f (by simp)) (hseen f (by simp)) s) htakes htail

end

/-- A record whose fields can be read back can be read back. -/
theorem reads_object {field state : Type} [DecidableEq field] {shape : Shape field state}
    {text : field → List Char} {set : state → field → state} (h : Matches shape text set)
    (start : state) (depth : Nat) :
    Reads (shape.reader start)
      (JsonLayout.object depth (shape.fields.map (memberText shape text)))
      (shape.fields.foldl set start) where
  starts := starts_block (by decide) depth _ _
  takes {cs rest} hcs hr := by
    have hseen : shape.firstMissing shape.fields.reverse = none := by
      simp [Shape.firstMissing]
    have hfolds := folds_fields h.toDistinct (fun _ hf => hf) h.nodup h.reads
      (fun f _ => List.not_mem_nil) start
    have hread := (reads_folds hfolds shape.title depth).append hr
    obtain ⟨more, hmore⟩ := object_opens depth (shape.fields.map (memberText shape text)) rest
    rw [reader_object shape start (hcs.trans hmore), hcs, hread]
    simp only [Except.bind, List.append_nil, hseen]

theorem Reads.map {α β : Type} {reader : Reader α} {text : List Char} {a : α}
    (h : Reads reader text a) (g : α → β) :
    Reads (fun cs => (reader cs).map fun r => (g r.1, r.2)) text (g a) where
  starts := h.starts
  takes hcs hr := by
    rw [h.takes hcs hr]
    rfl

/-- A text that is one value and nothing else. -/
theorem readDocument_text {α : Type} {reader : Reader α} {text : List Char} {a : α}
    (h : Reads reader text a) : readDocument reader (String.ofList text) = .ok a := by
  have hread : reader text = .ok (a, []) := by
    have happend := h.append (show Ends [] from trivial)
    rwa [List.append_nil] at happend
  simp only [readDocument, String.toList_ofList, hread, bind, Except.bind, skipSpace, pure,
    Except.pure]

end NeuronKernels.JsonRoundTrip
