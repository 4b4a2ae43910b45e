import NeuronKernels.RunStamp
import Mathlib.Data.List.TakeWhile
import Mathlib.Data.String.Basic

/-!
# Stamps as runs write them

A run writes each number of its stamp with zeros in front, to a width that does not change. Such
digits are in the order of their numbers (`precede_padded`), so the texts of two stamps are in the
order of their moments (`precedes_written_iff`), and a stamp reads back as its moment
(`ofText_written`).
-/

namespace NeuronKernels.WrittenStamps
open BlankCharacters RunStamp TextPieces

/-- The first moment is the earlier one. -/
def Earlier (s t : Stamp) : Prop :=
  s.year < t.year ∨ s.year = t.year ∧ (s.month < t.month ∨ s.month = t.month ∧
    (s.day < t.day ∨ s.day = t.day ∧ (s.hour < t.hour ∨ s.hour = t.hour ∧
      (s.minute < t.minute ∨ s.minute = t.minute ∧ s.second < t.second))))

/-- A moment of a year that is written with four digits. -/
structure OfFourDigits (s : Stamp) : Prop where
  year : 0 ≤ s.year ∧ s.year ≤ 9999
  month : 1 ≤ s.month ∧ s.month ≤ 12
  day : 1 ≤ s.day ∧ s.day ≤ daysIn s.year s.month
  hour : s.hour ≤ 23
  minute : s.minute ≤ 59
  second : s.second ≤ 60

/-- The last digits of a number, so many of them. -/
def padded : (width n : Nat) → List Char
  | 0, _ => []
  | width + 1, n => padded width (n / 10) ++ [Nat.digitChar (n % 10)]

/-- The stamp of a moment as a run writes it. -/
def written (s : Stamp) : String :=
  String.ofList (padded 4 s.year.toNat ++ (padded 2 s.month ++ (padded 2 s.day ++
    '_' :: (padded 2 s.hour ++ (padded 2 s.minute ++ padded 2 s.second)))))

theorem toNat_digitChar : ∀ n < 10, (Nat.digitChar n).toNat = 48 + n := by decide

@[simp] theorem length_padded (width n : Nat) : (padded width n).length = width := by
  induction width generalizing n with
  | zero => rfl
  | succ width ih => simp [padded, ih]

theorem isDigit_of_mem_padded {width n : Nat} {c : Char} (h : c ∈ padded width n) :
    isDigit c = true := by
  induction width generalizing n with
  | zero => cases h
  | succ width ih =>
    obtain front | last := List.mem_append.mp h
    · exact ih front
    · have below : n % 10 < 10 := Nat.mod_lt n (by decide)
      rw [List.mem_singleton.mp last, isDigit, toNat_digitChar _ below]
      simp only [Bool.and_eq_true, decide_eq_true_eq]
      omega

theorem digitsFrom_padded (start width n : Nat) :
    digitsFrom start (padded width n) = start * 10 ^ width + n % 10 ^ width := by
  induction width generalizing n with
  | zero => simp [padded, digitsFrom, Nat.mod_one]
  | succ width ih =>
    have below : n % 10 < 10 := Nat.mod_lt n (by decide)
    have front : digitsFrom start (padded width (n / 10)) =
        start * 10 ^ width + n / 10 % 10 ^ width := ih (n / 10)
    unfold digitsFrom at front ⊢
    rw [padded, List.foldl_append, front, List.foldl_cons, List.foldl_nil, digitValue,
      toNat_digitChar _ below, Nat.pow_succ, ← Nat.mul_assoc, Nat.mul_comm (10 ^ width) 10,
      Nat.mod_mul]
    omega

/-- The digits of two numbers are in the order of the numbers; equal ones leave the rest to decide. -/
theorem precede_padded (width m n : Nat) (xs ys : List Char) :
    charsPrecede (padded width m ++ xs) (padded width n ++ ys) = true ↔
      m % 10 ^ width < n % 10 ^ width ∨
        m % 10 ^ width = n % 10 ^ width ∧ charsPrecede xs ys = true := by
  induction width generalizing m n xs ys with
  | zero => simp [padded, Nat.mod_one]
  | succ width ih =>
    have hm : m % 10 < 10 := Nat.mod_lt m (by decide)
    have hn : n % 10 < 10 := Nat.mod_lt n (by decide)
    have last : charsPrecede (Nat.digitChar (m % 10) :: xs) (Nat.digitChar (n % 10) :: ys) = true ↔
        m % 10 < n % 10 ∨ m % 10 = n % 10 ∧ charsPrecede xs ys = true := by
      rw [charsPrecede, toNat_digitChar _ hm, toNat_digitChar _ hn]
      split
      · simp only [true_iff]
        omega
      · split
        · simp only [Bool.false_eq_true, false_iff]
          omega
        · have same : m % 10 = n % 10 := by omega
          simp [same]
    rw [padded, padded, List.append_assoc, List.append_assoc, List.singleton_append,
      List.singleton_append, ih, last, Nat.pow_succ', Nat.mod_mul, Nat.mod_mul]
    generalize m / 10 % 10 ^ width = a, n / 10 % 10 ^ width = b
    by_cases rest : charsPrecede xs ys = true
    · simp only [rest, and_true]
      omega
    · simp only [rest, Bool.false_eq_true, and_false, or_false]
      omega

theorem precede_mark (c : Char) (xs ys : List Char) :
    charsPrecede (c :: xs) (c :: ys) = charsPrecede xs ys := by
  simp [charsPrecede]

theorem precede_padded_end {width m n : Nat} :
    charsPrecede (padded width m) (padded width n) = true ↔
      m % 10 ^ width < n % 10 ^ width := by
  simpa [charsPrecede] using precede_padded width m n [] []

theorem dropBlanks_digit {c : Char} (h : isDigit c = true) (rest : List Char) :
    dropBlanks (c :: rest) = c :: rest := by
  have no_blank : isBlank c = false := by
    simp only [isDigit, Bool.and_eq_true, decide_eq_true_eq] at h
    simp only [isBlank, Bool.or_eq_false_iff, Bool.and_eq_false_iff, decide_eq_false_iff_not,
      beq_eq_false_iff_ne]
    omega
  rw [dropBlanks, no_blank, if_neg (by decide)]

theorem padded_eq_cons (width n : Nat) :
    ∃ c cs, padded (width + 1) n = c :: cs ∧ isDigit c = true := by
  have nonempty : padded (width + 1) n ≠ [] := List.ne_nil_of_length_pos (by simp)
  obtain ⟨c, cs, hcs⟩ := List.exists_cons_of_ne_nil nonempty
  have first : c ∈ padded (width + 1) n := by simp [hcs]
  exact ⟨c, cs, hcs, isDigit_of_mem_padded first⟩

theorem dropBlanks_padded (width n : Nat) (rest : List Char) :
    dropBlanks (padded (width + 1) n ++ rest) = padded (width + 1) n ++ rest := by
  obtain ⟨c, cs, hcs, digit⟩ := padded_eq_cons width n
  rw [hcs, List.cons_append, dropBlanks_digit digit]

theorem readDigits_padded (width n : Nat) (rest : List Char) :
    readDigits (width + 1) (padded (width + 1) n ++ rest) =
      some (n % 10 ^ (width + 1), rest) := by
  have first : (padded (width + 1) n ++ rest).take (width + 1) = padded (width + 1) n :=
    List.take_left' (length_padded _ n)
  have digits : (padded (width + 1) n).takeWhile isDigit = padded (width + 1) n := by
    exact List.takeWhile_eq_self_iff.mpr fun c => isDigit_of_mem_padded
  have some_digit : (padded (width + 1) n).isEmpty = false := by
    obtain ⟨c, cs, hcs, -⟩ := padded_eq_cons width n
    rw [hcs, List.isEmpty_cons]
  rw [readDigits, first, digits, some_digit]
  simp only [Bool.false_eq_true, if_false, digitsFrom_padded, Nat.zero_mul, Nat.zero_add,
    List.drop_left]

theorem readPart_padded {low high n : Nat} (hlow : low ≤ n) (hhigh : n ≤ high) (h : n < 100)
    (rest : List Char) : readPart low high (padded 2 n ++ rest) = some (n, rest) := by
  have two : n % 10 ^ 2 = n := Nat.mod_eq_of_lt h
  simp only [readPart, dropBlanks_padded, readDigits_padded, two, hlow, hhigh, and_self, if_true]

theorem readYear_padded {n : Nat} (h : n < 10000) (rest : List Char) :
    readYear (padded 4 n ++ rest) = some ((n : Int), rest) := by
  have four : n % 10 ^ 4 = n := Nat.mod_eq_of_lt h
  obtain ⟨c, cs, hcs, digit⟩ := padded_eq_cons 3 n
  have unsigned (sign : Char) (hsign : isDigit sign = false) : c ≠ sign := by
    rintro rfl
    cases digit.symm.trans hsign
  have read := readDigits_padded 3 n rest
  rw [readYear, dropBlanks_padded]
  rw [hcs, List.cons_append] at read ⊢
  split
  · rename_i sign
    exact absurd (List.cons.inj sign).1 (unsigned '-' rfl)
  · rename_i sign
    exact absurd (List.cons.inj sign).1 (unsigned '+' rfl)
  · rw [read, four]
    rfl

theorem daysIn_le (year : Int) (month : Nat) : daysIn year month ≤ 31 := by
  unfold daysIn
  split
  · split <;> omega
  · split <;> omega

/-- A stamp reads back as its moment. -/
theorem ofText_written {s : Stamp} (h : OfFourDigits s) : ofText (written s) = some s := by
  obtain ⟨year, month, day, hour, minute, second⟩ := s
  have ⟨hyear, hmonth, hday, hhour, hminute, hsecond⟩ := h
  dsimp only at hyear hmonth hday hhour hminute hsecond
  have last := daysIn_le year month
  have back : (year.toNat : Int) = year := Int.toNat_of_nonneg hyear.1
  have exists_day : hasDay ⟨year, month, day, hour, minute, second⟩ = true := by
    simp only [hasDay, yearBounds, Bool.and_eq_true]
    exact ⟨⟨decide_eq_true (by omega), decide_eq_true (by omega)⟩, decide_eq_true hday.2⟩
  have second_read : readPart 0 60 (padded 2 second) = some (second, []) := by
    simpa using readPart_padded (Nat.zero_le second) hsecond (by omega) []
  simp only [ofText, written, String.toList_ofList, Option.bind_eq_bind,
    readYear_padded (show year.toNat < 10000 by omega),
    readPart_padded hmonth.1 hmonth.2 (show month < 100 by omega),
    readPart_padded hday.1 (hday.2.trans last) (show day < 100 by omega), passUnderscore,
    readPart_padded (Nat.zero_le hour) hhour (show hour < 100 by omega),
    readPart_padded (Nat.zero_le minute) hminute (show minute < 100 by omega), second_read,
    Option.bind_some, back, exists_day, List.isEmpty_nil, Bool.and_self, if_true]

/-- The order of the texts that runs write is the order of their moments. -/
theorem precedes_written_iff {s t : Stamp} (hs : OfFourDigits s) (ht : OfFourDigits t) :
    precedes (written s) (written t) = true ↔ Earlier s t := by
  have ⟨hyear, hmonth, hday, hhour, hminute, hsecond⟩ := hs
  have ⟨hyear', hmonth', hday', hhour', hminute', hsecond'⟩ := ht
  have last := daysIn_le s.year s.month
  have last' := daysIn_le t.year t.month
  have two {n : Nat} (h : n ≤ 99) : n % 10 ^ 2 = n := Nat.mod_eq_of_lt (by omega)
  have four {y : Int} (h : 0 ≤ y ∧ y ≤ 9999) : y.toNat % 10 ^ 4 = y.toNat :=
    Nat.mod_eq_of_lt (by omega)
  simp only [precedes, written, String.toList_ofList, precede_padded, precede_mark,
    precede_padded_end]
  rw [four hyear, four hyear', two (by omega : s.month ≤ 99), two (by omega : t.month ≤ 99),
    two (by omega : s.day ≤ 99), two (by omega : t.day ≤ 99), two (by omega : s.hour ≤ 99),
    two (by omega : t.hour ≤ 99), two (by omega : s.minute ≤ 99), two (by omega : t.minute ≤ 99),
    two (by omega : s.second ≤ 99), two (by omega : t.second ≤ 99), Earlier]
  have below : s.year.toNat < t.year.toNat ↔ s.year < t.year := by omega
  have same : s.year.toNat = t.year.toNat ↔ s.year = t.year := by omega
  rw [below, same]

/-- Texts are compared like lists of code points: the order is a linear one. -/
theorem precedes_iff_lt {s t : String} : precedes s t = true ↔ s < t := by
  have chars (cs ds : List Char) : charsPrecede cs ds = true ↔ cs < ds := by
    induction cs generalizing ds with
    | nil => cases ds <;> simp [charsPrecede]
    | cons c cs ih =>
      cases ds with
      | nil => simp [charsPrecede]
      | cons d ds =>
        have below (a b : Char) : a.toNat < b.toNat ↔ a < b := Iff.rfl
        rw [charsPrecede, List.cons_lt_cons_iff, ← ih, ← below]
        split
        · rename_i is_below
          simp [is_below]
        · rename_i not_below
          split
          · rename_i above
            have different : c ≠ d := by
              rintro rfl
              omega
            simp [not_below, different]
          · have same : c = d := Char.toNat_inj.mp (by omega)
            simp [same]
  rw [precedes, chars, String.lt_iff_toList_lt]

end NeuronKernels.WrittenStamps
