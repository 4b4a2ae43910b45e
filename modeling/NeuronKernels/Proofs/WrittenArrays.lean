import NeuronKernels.BlankCharacters
import NeuronKernels.Proofs.PlainConstants
import NeuronKernels.StandaloneSource

/-!
# The elements of a written array

The values of an array are words without blanks, commas and braces (`word_valueText`). So between
the braces of the array, cut at the commas and without blanks, there are just these words, and the
closing zero behind them (`elements_arrayText`).
-/

namespace NeuronKernels.WrittenArrays
open BinaryFloat BlankCharacters DecimalText PlainConstants StandaloneSource TextPieces

variable {p : Precision}

/-- The texts of the elements of an array definition: what stands between the braces, cut at the
commas and without the blanks around each piece. -/
def elements (definition : List Char) : List (List Char) :=
  (splitOn ',' (((definition.dropWhile (· != '\x7b')).drop 1).takeWhile (· != '\x7d'))).map trim

/-- A character of numbers and names. -/
def isWordChar (c : Char) : Bool := isDigit c || isAsciiLetter c || c == '.' || c == '-'

/-- A text of such characters. -/
structure Word (cs : List Char) : Prop where
  ne_nil : cs ≠ []
  chars : ∀ c ∈ cs, isWordChar c = true

def Blank (cs : List Char) : Prop := ∀ c ∈ cs, isBlank c = true

theorem blank_nil : Blank [] := nofun

theorem blank_cons {c : Char} {cs : List Char} (hc : isBlank c = true) (h : Blank cs) :
    Blank (c :: cs) := List.forall_mem_cons.mpr ⟨hc, h⟩

theorem not_isBlank {c : Char} (h : isWordChar c = true) : isBlank c = false := by
  simp only [isWordChar, isDigit, isAsciiLetter, Bool.or_eq_true, Bool.and_eq_true,
    decide_eq_true_eq, beq_iff_eq] at h
  obtain ((h | h) | rfl) | rfl := h
  · simp only [isBlank, Bool.or_eq_false_iff, Bool.and_eq_false_iff, decide_eq_false_iff_not,
      beq_eq_false_iff_ne]
    omega
  · simp only [isBlank, Bool.or_eq_false_iff, Bool.and_eq_false_iff, decide_eq_false_iff_not,
      beq_eq_false_iff_ne]
    omega
  · rfl
  · rfl

theorem dropBlanks_append {blanks : List Char} (hb : Blank blanks) (cs : List Char) :
    dropBlanks (blanks ++ cs) = dropBlanks cs := by
  induction blanks with
  | nil => rfl
  | cons c blanks ih =>
    rw [List.cons_append, dropBlanks, if_pos (hb c List.mem_cons_self)]
    exact ih fun d hd => hb d (List.mem_cons_of_mem _ hd)

theorem dropBlanks_word {word : List Char} (h : Word word) (rest : List Char) :
    dropBlanks (word ++ rest) = word ++ rest := by
  cases word with
  | nil => exact absurd rfl h.ne_nil
  | cons c word =>
    have hc := not_isBlank (h.chars c List.mem_cons_self)
    rw [List.cons_append, dropBlanks, hc]
    rfl

theorem trim_word {before word after : List Char} (hb : Blank before) (h : Word word)
    (ha : Blank after) : trim (before ++ word ++ after) = word := by
  have hreverse : Word word.reverse := ⟨by simpa using h.ne_nil, by simpa using h.chars⟩
  have ha' : Blank after.reverse := by simpa [Blank] using ha
  rw [trim, List.append_assoc, dropBlanks_append hb, dropBlanks_word h, List.reverse_append,
    dropBlanks_append ha', ← List.append_nil word.reverse, dropBlanks_word hreverse,
    List.append_nil, List.reverse_reverse]

theorem not_mem_word {word : List Char} (h : Word word) {mark : Char}
    (hmark : isWordChar mark = false) : mark ∉ word := by
  intro hmem
  rw [h.chars mark hmem] at hmark
  cases hmark

theorem not_mem_blank {blanks : List Char} (h : Blank blanks) {mark : Char}
    (hmark : isBlank mark = false) : mark ∉ blanks := by
  intro hmem
  rw [h mark hmem] at hmark
  cases hmark

/-- Words with a comma and blanks behind each. -/
def row (gap : Nat → List Char) (words : List (List Char)) : List Char :=
  (words.mapIdx fun i word => word ++ ',' :: gap i).flatten

theorem row_cons (gap : Nat → List Char) (word : List Char) (words : List (List Char)) :
    row gap (word :: words) = word ++ ',' :: (gap 0 ++ row (fun i => gap (i + 1)) words) := by
  simp [row, List.mapIdx_cons]

theorem trim_append {blanks : List Char} (hb : Blank blanks) (cs : List Char) :
    trim (blanks ++ cs) = trim cs := by
  rw [trim, dropBlanks_append hb, trim]

theorem pieces_row {gap : Nat → List Char} {words : List (List Char)} {start rest : List Char}
    (hs : Blank start) (hg : ∀ i, Blank (gap i)) (hw : ∀ word ∈ words, Word word)
    (hr : ',' ∉ rest) :
    (splitOn ',' (start ++ row gap words ++ rest)).map trim = words ++ [trim rest] := by
  have hcomma : isWordChar ',' = false ∧ isBlank ',' = false := by decide
  -- The gap behind a comma is the start of the next piece, so the start is general.
  induction words generalizing gap start with
  | nil =>
    have hpiece : ',' ∉ start ++ rest := by
      simp [not_mem_blank hs hcomma.2, hr]
    rw [row, List.mapIdx_nil, List.flatten_nil, List.append_nil, splitOn_of_not_mem hpiece,
      List.map_singleton, trim_append hs, List.nil_append]
  | cons word words ih =>
    obtain ⟨hword, hwords⟩ := List.forall_mem_cons.mp hw
    have hpiece : ',' ∉ start ++ word := by
      simp [not_mem_blank hs hcomma.2, not_mem_word hword hcomma.1]
    have htext : start ++ row gap (word :: words) ++ rest =
        (start ++ word) ++ ',' :: (gap 0 ++ row (fun i => gap (i + 1)) words ++ rest) := by
      rw [row_cons]
      simp
    have htrim : trim (start ++ word) = word := by
      have h : trim (start ++ word ++ []) = word := trim_word hs hword blank_nil
      rwa [List.append_nil] at h
    rw [htext, splitOn_append, splitOn_of_not_mem hpiece, List.singleton_append, List.map_cons,
      htrim, ih (hg 0) (fun i => hg (i + 1)) hwords, List.cons_append]

theorem not_mem_row {gap : Nat → List Char} {words : List (List Char)} {mark : Char}
    (hword : isWordChar mark = false) (hblank : isBlank mark = false) (hcomma : mark ≠ ',')
    (hg : ∀ i, Blank (gap i)) (hw : ∀ word ∈ words, Word word) : mark ∉ row gap words := by
  induction words generalizing gap with
  | nil => nofun
  | cons word words ih =>
    obtain ⟨hfirst, hwords⟩ := List.forall_mem_cons.mp hw
    rw [row_cons]
    simp [not_mem_word hfirst hword, hcomma, not_mem_blank (hg 0) hblank,
      ih (fun i => hg (i + 1)) hwords]

theorem toList_valueText (negative : Bool) (rank : Fin p.finiteCount) :
    (valueText (.finite negative rank : Value p)).toList =
      signed negative (plainMagnitude p rank) := by
  simp [valueText, plainText]

theorem word_valueText (v : Value p) : Word (valueText v).toList := by
  cases v with
  | nan => exact (⟨by decide, List.all_eq_true.mp rfl⟩ : Word "NAN".toList)
  | infinity negative =>
    cases negative with
    | false => exact (⟨by decide, List.all_eq_true.mp rfl⟩ : Word "INFINITY".toList)
    | true => exact (⟨by decide, List.all_eq_true.mp rfl⟩ : Word "-INFINITY".toList)
  | finite negative rank =>
    have hread := ofChars_plainMagnitude p rank
    have hmagnitude : Word (plainMagnitude p rank) := by
      refine ⟨ne_nil_of_ofChars hread, fun c hc => ?_⟩
      obtain hc | rfl := mem_of_ofChars hread hc
      · simp [isWordChar, hc]
      · rfl
    rw [toList_valueText]
    cases negative with
    | false => exact hmagnitude
    | true =>
      refine ⟨by simp [signed], fun c hc => ?_⟩
      obtain rfl | hc := List.mem_cons.mp hc
      · rfl
      · exact hmagnitude.chars c hc

theorem word_of_mem {values : List (Value p)} {word : List Char}
    (h : word ∈ values.map fun v => (valueText v).toList) : Word word := by
  obtain ⟨v, -, rfl⟩ := List.mem_map.mp h
  exact word_valueText v

theorem not_mem_typeName {c : Char} (hc : isAsciiLetter c = false) (p : Precision) :
    c ∉ (KernelLayout.typeName p).toList := by
  have hletters : ∀ d ∈ (KernelLayout.typeName p).toList, isAsciiLetter d = true := by
    cases p with
    | single => exact List.all_eq_true.mp rfl
    | double => exact List.all_eq_true.mp rfl
  intro hmem
  rw [hletters c hmem] at hc
  cases hc

/-- The blanks behind the comma of an item. -/
def itemGap (position : Nat) : List Char :=
  ' ' :: if position % valuesPerLine = valuesPerLine - 1 then ['\n'] else []

theorem blank_itemGap (position : Nat) : Blank (itemGap position) := by
  unfold itemGap
  split
  · exact blank_cons rfl (blank_cons rfl blank_nil)
  · exact blank_cons rfl blank_nil

theorem toList_concat (texts : List String) :
    (concat texts).toList = (texts.map String.toList).flatten := by
  induction texts with
  | nil => rfl
  | cons text texts ih => simp [concat, ih]

theorem toList_arrayItem (position : Nat) (v : Value p) :
    (arrayItem position v).toList = (valueText v).toList ++ ',' :: itemGap position := by
  unfold arrayItem itemGap
  split <;> simp

theorem toList_items (values : List (Value p)) :
    (concat (values.mapIdx arrayItem)).toList =
      row itemGap (values.map fun v => (valueText v).toList) := by
  have hitems : (values.mapIdx arrayItem).map String.toList =
      (values.map fun v => (valueText v).toList).mapIdx fun i word => word ++ ',' :: itemGap i := by
    refine List.ext_getElem? fun i => ?_
    simp only [List.getElem?_map, List.getElem?_mapIdx, Option.map_map]
    congr 1
    funext v
    exact toList_arrayItem i v
  rw [toList_concat, hitems, row]

/-- In the definition of an array a compiler finds the values and the closing zero. -/
theorem elements_arrayText {name : String} (hname : '\x7b' ∉ name.toList)
    (values : List (Value p)) :
    elements (arrayText name values).toList =
      (values.map fun v => (valueText v).toList) ++ [['0']] := by
  set words := values.map fun v => (valueText v).toList with hwordsDef
  have hwords : ∀ word ∈ words, Word word := fun word => word_of_mem
  set start := (line (KernelLayout.typeName p ++ " " ++ name ++ "[] = ")).toList with hstart
  set inside := [' ', '\n'] ++ row itemGap words ++ (['0'] ++ [' ']) with hinside
  have htext : (arrayText name values).toList =
      start ++ '\x7b' :: (inside ++ '\x7d' :: "; \n".toList) := by
    simp [arrayText, arrayBody, toList_items, ← hwordsDef, ← hstart, hinside]
  have hopen : ∀ c ∈ start, (c != '\x7b') = true := by
    have htype := not_mem_typeName (show isAsciiLetter '\x7b' = false from rfl) p
    intro c hc
    rw [bne_iff_ne]
    rintro rfl
    simp [hstart, line, htype, hname] at hc
  have hclose : ∀ c ∈ inside, (c != '\x7d') = true := by
    have hrow : '\x7d' ∉ row itemGap words :=
      not_mem_row rfl rfl (by decide) blank_itemGap hwords
    intro c hc
    rw [bne_iff_ne]
    rintro rfl
    simp [hinside, hrow] at hc
  have hbetween : ((((arrayText name values).toList.dropWhile (· != '\x7b')).drop 1).takeWhile
      (· != '\x7d')) = inside := by
    rw [htext, List.dropWhile_append_of_pos hopen, List.dropWhile_cons_of_neg (by decide),
      List.drop_one, List.tail_cons, List.takeWhile_append_of_pos hclose,
      List.takeWhile_cons_of_neg (by decide), List.append_nil]
  rw [elements, hbetween, hinside]
  exact pieces_row (blank_cons rfl (blank_cons rfl blank_nil)) blank_itemGap hwords (by decide)

end NeuronKernels.WrittenArrays
