import NeuronKernels.Proofs.WrittenArrays

/-!
# The lines of a written array

The break behind an item depends on its position alone, so the items that follow a multiple of eight
stand together on a line: eight of them with the break behind (`items_full`), or fewer without one
(`items_part`). Commas and breaks are no characters of a spelling, and cutting the text at either of
them gives back what was written (`array_reads_back`).
-/

namespace NeuronKernels.ArrayLines
open BinaryFloat BlankCharacters StandaloneSource TextPieces WrittenArrays

variable {p : Precision}

def lineText (values : List (Value p)) : String :=
  concat (values.map fun v => valueText v ++ ", ")

/-- The items of values, the first of them at a position. -/
def itemsFrom (start : Nat) (values : List (Value p)) : String :=
  concat (values.mapIdx fun i => arrayItem (start + i))

@[simp] theorem lineText_nil : lineText ([] : List (Value p)) = "" := rfl

theorem lineText_cons (v : Value p) (values : List (Value p)) :
    lineText (v :: values) = valueText v ++ ", " ++ lineText values := rfl

@[simp] theorem itemsFrom_nil (start : Nat) : itemsFrom start ([] : List (Value p)) = "" := rfl

theorem itemsFrom_cons (start : Nat) (v : Value p) (values : List (Value p)) :
    itemsFrom start (v :: values) = arrayItem start v ++ itemsFrom (start + 1) values := by
  simp only [itemsFrom, List.mapIdx_cons, concat, Nat.add_zero, Nat.add_assoc, Nat.add_comm 1]

theorem itemsFrom_append (start : Nat) (first second : List (Value p)) :
    itemsFrom start (first ++ second) =
      itemsFrom start first ++ itemsFrom (start + first.length) second := by
  induction first generalizing start with
  | nil => simp
  | cons v first ih =>
    rw [List.cons_append, itemsFrom_cons, itemsFrom_cons, ih, String.append_assoc,
      List.length_cons, Nat.add_assoc start 1, Nat.add_comm 1]

theorem arrayItem_eq (start : Nat) (v : Value p) :
    arrayItem start v = valueText v ++ ", " ++ if start % 8 = 7 then "\n" else "" := rfl

/-- Values that do not reach the end of a line. -/
theorem items_part {start : Nat} {values : List (Value p)}
    (room : start % 8 + values.length < 8) : itemsFrom start values = lineText values := by
  induction values generalizing start with
  | nil => rfl
  | cons v values ih =>
    rw [List.length_cons] at room
    have inside : ¬ start % 8 = 7 := by omega
    rw [itemsFrom_cons, lineText_cons, arrayItem_eq, if_neg inside, String.append_empty,
      ih (by omega)]

/-- Values that fill a line up. -/
theorem items_full {start : Nat} {values : List (Value p)} (begun : values ≠ [])
    (filled : start % 8 + values.length = 8) : itemsFrom start values = line (lineText values) := by
  induction values generalizing start with
  | nil => exact absurd rfl begun
  | cons v values ih =>
    rw [List.length_cons] at filled
    rw [itemsFrom_cons, lineText_cons, arrayItem_eq]
    by_cases rest : values = []
    · subst rest
      have last : start % 8 = 7 := by simpa using filled
      simp [last, line]
    · have inside : ¬ start % 8 = 7 := by
        have := List.length_pos_iff.mpr rest
        omega
      rw [if_neg inside, String.append_empty, ih rest (by omega)]
      simp [line, String.append_assoc]

theorem items_lines {start : Nat} (begins : start % 8 = 0) {full : List (List (Value p))}
    {last : List (Value p)} (eight : ∀ values ∈ full, values.length = 8) (short : last.length < 8) :
    itemsFrom start (full.flatten ++ last) =
      concat (full.map fun values => line (lineText values)) ++ lineText last := by
  induction full generalizing start with
  | nil =>
    have room : start % 8 + last.length < 8 := by omega
    simpa [concat] using items_part room
  | cons values full ih =>
    obtain ⟨length, eight⟩ := List.forall_mem_cons.mp eight
    have filled : itemsFrom start values = line (lineText values) :=
      items_full (List.ne_nil_of_length_pos (by omega)) (by omega)
    rw [List.flatten_cons, List.append_assoc, itemsFrom_append, filled, ih (by omega) eight,
      List.map_cons, concat, String.append_assoc]

/-- Every list is a row of full lines and a last one with room left. -/
theorem exists_lines {α : Type} (values : List α) :
    ∃ (full : List (List α)) (last : List α), values = full.flatten ++ last ∧
      (∀ group ∈ full, group.length = 8) ∧ last.length < 8 := by
  induction h : values.length / 8 generalizing values with
  | zero => exact ⟨[], values, rfl, nofun, by omega⟩
  | succ n ih =>
    obtain ⟨full, last, split, eight, short⟩ := ih (values.drop 8) (by rw [List.length_drop]; omega)
    refine ⟨values.take 8 :: full, last, ?_, List.forall_mem_cons.mpr ⟨?_, eight⟩, short⟩
    · rw [List.flatten_cons, List.append_assoc, ← split, List.take_append_drop]
    · rw [List.length_take]
      omega

theorem not_mem_lineText {mark : Char} (hword : isWordChar mark = false) (hcomma : mark ≠ ',')
    (hblank : mark ≠ ' ') (values : List (Value p)) : mark ∉ (lineText values).toList := by
  induction values with
  | nil => nofun
  | cons v values ih =>
    simp [lineText_cons, not_mem_word (word_valueText v) hword, hcomma, hblank, ih]

theorem splitOn_lines {lines : List String} (h : ∀ s ∈ lines, '\n' ∉ s.toList)
    (rest : List Char) :
    splitOn '\n' ((concat (lines.map line)).toList ++ rest) =
      lines.map String.toList ++ splitOn '\n' rest := by
  induction lines with
  | nil => rfl
  | cons s lines ih =>
    obtain ⟨hs, hlines⟩ := List.forall_mem_cons.mp h
    have text : (concat ((s :: lines).map line)).toList ++ rest =
        s.toList ++ '\n' :: ((concat (lines.map line)).toList ++ rest) := by
      simp [concat, line]
    rw [text, splitOn_append, splitOn_of_not_mem hs, ih hlines, List.map_cons,
      List.singleton_append, List.cons_append]

theorem arrayBody_lines {full : List (List (Value p))} {last : List (Value p)}
    (eight : ∀ group ∈ full, group.length = 8) (short : last.length < 8) :
    arrayBody (full.flatten ++ last) =
      concat (full.map fun group => line (lineText group)) ++ line (lineText last ++ "0 \x7d; ") := by
  have from_zero (values : List (Value p)) :
      concat (values.mapIdx arrayItem) = itemsFrom 0 values := by
    simp only [itemsFrom, Nat.zero_add]
  rw [arrayBody, from_zero, items_lines rfl eight short, line, String.append_assoc,
    String.append_assoc]
  rfl

theorem splitOn_arrayLines (full : List (List (Value p))) (last : List (Value p)) :
    splitOn '\n' (concat (full.map fun group => line (lineText group)) ++
        line (lineText last ++ "0 \x7d; ")).toList =
      full.map (fun group => (lineText group).toList) ++
        [(lineText last ++ "0 \x7d; ").toList, []] := by
  have breaks (group : List (Value p)) : '\n' ∉ (lineText group).toList :=
    not_mem_lineText rfl (by decide) (by decide) group
  have closing : '\n' ∉ (lineText last ++ "0 \x7d; ").toList := by
    simp [breaks last]
  have lines : ∀ s ∈ full.map lineText, '\n' ∉ s.toList := by
    intro s mem
    obtain ⟨group, -, rfl⟩ := List.mem_map.mp mem
    exact breaks group
  have cut := splitOn_lines lines (line (lineText last ++ "0 \x7d; ")).toList
  rw [List.map_map, List.map_map] at cut
  rw [String.toList_append]
  refine cut.trans ?_
  rw [line, String.toList_append, show ("\n" : String).toList = '\n' :: [] from rfl, splitOn_append,
    splitOn_of_not_mem closing]
  rfl

theorem toList_arrayBody (values : List (Value p)) :
    (arrayBody values).toList =
      row itemGap (values.map fun v => (valueText v).toList) ++ "0 \x7d; \n".toList := by
  rw [arrayBody, String.toList_append, toList_items]

theorem takeWhile_arrayBody (values : List (Value p)) :
    (arrayBody values).toList.takeWhile (· != '\x7d') =
      row itemGap (values.map fun v => (valueText v).toList) ++ ['0', ' '] := by
  have inside : ∀ c ∈ row itemGap (values.map fun v => (valueText v).toList) ++ ['0', ' '],
      (c != '\x7d') = true := by
    have hrow : '\x7d' ∉ row itemGap (values.map fun v => (valueText v).toList) :=
      not_mem_row rfl rfl (by decide) blank_itemGap fun _ => word_of_mem
    intro c hc
    rw [bne_iff_ne]
    rintro rfl
    simp [hrow] at hc
  have parts : (arrayBody values).toList =
      (row itemGap (values.map fun v => (valueText v).toList) ++ ['0', ' ']) ++
        '\x7d' :: "; \n".toList := by
    simp [toList_arrayBody]
  rw [parts, List.takeWhile_append_of_pos inside, List.takeWhile_cons_of_neg (by decide),
    List.append_nil]

/-- Behind its two opening lines an array holds the spellings of its values in their order, each
with a comma and a blank, in lines of eight, and on the last line fewer than eight and the closing
zero. Cut at the breaks the text gives the lines back; cut at the commas, without the blanks, the
spellings and the zero. -/
theorem array_reads_back (name : String) (values : List (Value p)) :
    arrayText name values =
        line (KernelLayout.typeName p ++ " " ++ name ++ "[] = ") ++ line "\x7b " ++
          arrayBody values ∧
      (∃ (full : List (List (Value p))) (last : List (Value p)), values = full.flatten ++ last ∧
        (∀ group ∈ full, group.length = 8) ∧ last.length < 8 ∧
        arrayBody values =
          concat (full.map fun group => line (lineText group)) ++
            line (lineText last ++ "0 \x7d; ") ∧
        splitOn '\n' (arrayBody values).toList =
          full.map (fun group => (lineText group).toList) ++
            [(lineText last ++ "0 \x7d; ").toList, []]) ∧
      (splitOn ',' ((arrayBody values).toList.takeWhile (· != '\x7d'))).map trim =
        values.map (fun v => (valueText v).toList) ++ [['0']] ∧
      (splitOn ',' (arrayBody values).toList).map trim =
        values.map (fun v => (valueText v).toList) ++ ["0 \x7d;".toList] := by
  have pieces {rest : List Char} (hrest : ',' ∉ rest) :
      (splitOn ',' (row itemGap (values.map fun v => (valueText v).toList) ++ rest)).map trim =
        values.map (fun v => (valueText v).toList) ++ [trim rest] :=
    pieces_row blank_nil blank_itemGap (fun _ => word_of_mem) hrest
  refine ⟨rfl, ?_, ?_, ?_⟩
  · obtain ⟨full, last, rfl, eight, short⟩ := exists_lines values
    refine ⟨full, last, rfl, eight, short, arrayBody_lines eight short, ?_⟩
    rw [arrayBody_lines eight short, splitOn_arrayLines]
  · rw [takeWhile_arrayBody]
    exact pieces (by decide)
  · rw [toList_arrayBody]
    exact pieces (by decide)

end NeuronKernels.ArrayLines
