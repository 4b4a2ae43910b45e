import NeuronKernels.Proofs.CompactNumbers
import Mathlib.Data.List.TakeWhile

/-!
# Plain numbers as constants of C

Without an exponent mark the shortest decimal of a magnitude is written as a constant of C: a whole
number when it has no places, and otherwise digits with a point (`ofChars_plainMagnitude`). The
constant lies in the interval of the magnitude (`nearest_plainConstant`). Nothing bounds the whole
numbers: their size is that of the magnitude (`fits_of_lt`, `not_fits_of_gt`).
-/

namespace NeuronKernels.PlainConstants
open BinaryFloat CompactNumbers DecimalText JsonReading RoundingIntervals ShortestDecimal
open ShortestDigits TextPieces

variable {p : Precision}

/-- A decimal constant of C: a whole number, or digits of which so many stand behind a point. -/
inductive Constant
  | whole (n : Nat)
  | point (digits places : Nat)
  deriving DecidableEq

def Constant.number : Constant → ℚ
  | .whole n => n
  | .point digits places => digits / 10 ^ places

/-- The constant that a text is. A zero in front of further digits would start an octal number, but
in front of a point it is a digit like any other. -/
def Constant.ofChars (cs : List Char) : Option Constant :=
  let whole := cs.takeWhile isDigit
  match cs.dropWhile isDigit with
  | [] =>
    if whole.isEmpty || (whole.head? == some '0' && whole != ['0']) then none
    else some (.whole (digitsFrom 0 whole))
  | c :: fraction =>
    if c ≠ '.' ∨ !fraction.all isDigit ∨ whole.isEmpty && fraction.isEmpty then none
    else some (.point (digitsFrom 0 (whole ++ fraction)) fraction.length)

theorem takeWhile_digits {ds : List Char} (h : ∀ c ∈ ds, isDigit c = true) :
    ds.takeWhile isDigit = ds ∧ ds.dropWhile isDigit = [] := by
  have hspan := span_digits h (show startsWithDigit [] = false from rfl)
  rwa [List.append_nil] at hspan

theorem ofChars_whole {ds : List Char} (h : WholePart ds) :
    Constant.ofChars ds = some (.whole (digitsFrom 0 ds)) := by
  obtain ⟨htake, hdrop⟩ := takeWhile_digits h.digits
  have hempty : ds.isEmpty = false := List.isEmpty_eq_false_iff.mpr h.ne_nil
  have hlead : (ds.head? == some '0' && ds != ['0']) = false := by
    cases ds with
    | nil => rfl
    | cons c cs =>
      by_cases hc : c = '0'
      · subst hc
        rw [h.lead cs rfl]
        rfl
      · simp [hc]
  simp only [Constant.ofChars, htake, hdrop, hempty, hlead]
  rfl

theorem ofChars_point {whole fraction : List Char} (hw : WholePart whole)
    (hf : ∀ c ∈ fraction, isDigit c = true) :
    Constant.ofChars (whole ++ '.' :: fraction) =
      some (.point (digitsFrom 0 (whole ++ fraction)) fraction.length) := by
  obtain ⟨htake, hdrop⟩ :=
    span_digits hw.digits (show startsWithDigit ('.' :: fraction) = false from rfl)
  have hempty : whole.isEmpty = false := List.isEmpty_eq_false_iff.mpr hw.ne_nil
  have hall : fraction.all isDigit = true := List.all_eq_true.mpr hf
  simp [Constant.ofChars, htake, hdrop, hempty, hall]

theorem ofChars_cases {cs : List Char} {c : Constant} (h : Constant.ofChars cs = some c) :
    (cs ≠ [] ∧ (∀ d ∈ cs, isDigit d = true) ∧ c = .whole (digitsFrom 0 cs)) ∨
      ∃ whole fraction, cs = whole ++ '.' :: fraction ∧
        (∀ d ∈ whole ++ fraction, isDigit d = true) ∧
        c = .point (digitsFrom 0 (whole ++ fraction)) fraction.length := by
  have hsplit := List.takeWhile_append_dropWhile (p := isDigit) (l := cs)
  have hdigits : ∀ d ∈ cs.takeWhile isDigit, isDigit d = true := fun d => List.mem_takeWhile_imp
  simp only [Constant.ofChars] at h
  split at h
  · next hdrop =>
    rw [hdrop, List.append_nil] at hsplit
    rw [hsplit] at h hdigits
    split at h
    · cases h
    · next hform =>
      simp only [Bool.or_eq_true, List.isEmpty_iff, not_or] at hform
      exact .inl ⟨hform.1, hdigits, (Option.some.inj h).symm⟩
  · next d fraction hdrop =>
    split at h
    · cases h
    · next hform =>
      obtain ⟨hpoint, hrest⟩ := not_or.mp hform
      obtain rfl : d = '.' := not_not.mp hpoint
      have hfraction : ∀ d ∈ fraction, isDigit d = true := by simpa using (not_or.mp hrest).1
      rw [hdrop] at hsplit
      refine .inr ⟨_, fraction, hsplit.symm, fun d hd => ?_, (Option.some.inj h).symm⟩
      obtain hd | hd := List.mem_append.mp hd
      · exact hdigits d hd
      · exact hfraction d hd

/-- The point tells the two kinds of constants apart. -/
theorem point_mem_iff {cs : List Char} {c : Constant} (h : Constant.ofChars cs = some c) :
    '.' ∈ cs ↔ ∃ digits places, c = .point digits places := by
  obtain ⟨-, hdigits, rfl⟩ | ⟨whole, fraction, rfl, -, rfl⟩ := ofChars_cases h
  · have hpoint : '.' ∉ cs := fun hmem => nomatch hdigits _ hmem
    simp [hpoint]
  · simp

theorem mem_of_ofChars {cs : List Char} {c : Constant} (h : Constant.ofChars cs = some c) {d : Char}
    (hd : d ∈ cs) : isDigit d = true ∨ d = '.' := by
  obtain ⟨-, hdigits, -⟩ | ⟨whole, fraction, rfl, hdigits, -⟩ := ofChars_cases h
  · exact .inl (hdigits d hd)
  · obtain hd | hd := List.mem_append.mp hd
    · exact .inl (hdigits d (List.mem_append_left _ hd))
    · obtain rfl | hd := List.mem_cons.mp hd
      · exact .inr rfl
      · exact .inl (hdigits d (List.mem_append_right _ hd))

theorem ne_nil_of_ofChars {cs : List Char} {c : Constant} (h : Constant.ofChars cs = some c) :
    cs ≠ [] := by
  obtain ⟨hne, -⟩ | ⟨whole, fraction, rfl, -⟩ := ofChars_cases h
  · exact hne
  · simp

def constantOf (d : Decimal) : Constant :=
  if 0 ≤ d.exponent then .whole (d.digits * 10 ^ d.exponent.toNat)
  else .point d.digits (-d.exponent).toNat

def plainConstant (p : Precision) (rank : Nat) : Constant :=
  if rank = 0 then .whole 0 else constantOf (shortest p .upper rank)

theorem number_constantOf (d : Decimal) : (constantOf d).number = d.digits * 10 ^ d.exponent := by
  unfold constantOf
  split
  · next he =>
    rw [Constant.number, ten_zpow_toNat he]
    push_cast
    rfl
  · next he =>
    rw [Constant.number, div_eq_iff (by positivity), mul_assoc, ten_zpow_mul_toNat_neg he, mul_one]

theorem ofChars_plainDigits {d : Decimal} (hd : 0 < d.digits) :
    Constant.ofChars (plainDigits d) = some (constantOf d) := by
  unfold constantOf
  split
  · next he =>
    obtain ⟨hwhole, hvalue⟩ := plainDigits_whole hd he
    rw [ofChars_whole hwhole, hvalue]
  · next he =>
    obtain ⟨whole, fraction, htext, hwhole, hfraction, hlength, hvalue⟩ :=
      plainDigits_point hd (not_le.mp he)
    have hplaces : fraction.length = (-d.exponent).toNat := by omega
    rw [htext, ofChars_point hwhole hfraction, hvalue, hplaces]

theorem digits_shortest_pos {rank : Nat} (hr : 0 < rank) :
    0 < (shortest p .upper rank).digits :=
  digits_pos_of_nearest (shortest_spec p .upper hr).1 hr

/-- Every finite magnitude is written as a constant. -/
theorem ofChars_plainMagnitude (p : Precision) (rank : Nat) :
    Constant.ofChars (plainMagnitude p rank) = some (plainConstant p rank) := by
  unfold plainMagnitude plainConstant
  split
  · rfl
  · next hr => exact ofChars_plainDigits (digits_shortest_pos (Nat.pos_of_ne_zero hr))

theorem nearest_plainConstant (p : Precision) (rank : Nat) :
    Nearest p rank ((plainConstant p rank).number * 2 ^ p.unitExponent) := by
  unfold plainConstant
  split
  · next hr =>
    have hzero := nearest_units p 0
    rw [units_zero] at hzero
    rw [hr]
    simpa [Constant.number] using hzero
  · next hr =>
    rw [number_constantOf]
    exact (shortest_spec p .upper (Nat.pos_of_ne_zero hr)).1

theorem whole_pos {rank n : Nat} (hr : 0 < rank) (h : plainConstant p rank = .whole n) : 0 < n := by
  refine Nat.pos_of_ne_zero fun hzero => ?_
  have hone := Nearest.one_le (nearest_plainConstant p rank) hr
  rw [h, hzero] at hone
  simp only [Constant.number, Nat.cast_zero, zero_mul, mul_zero] at hone
  exact absurd hone (by norm_num)

theorem rank_pos_of_point {rank digits places : Nat}
    (h : plainConstant p rank = .point digits places) : 0 < rank := by
  refine Nat.pos_of_ne_zero fun hzero => ?_
  rw [plainConstant, if_pos hzero] at h
  cases h

/-- Whether the constant of a magnitude, if it is a whole number, has no more than so many bits. -/
def Fits (bits : Nat) (p : Precision) (rank : Nat) : Prop :=
  ∀ n, plainConstant p rank = .whole n → n < 2 ^ bits

theorem exists_units_pow (p : Precision) (bits : Nat) :
    ∃ r, units p r = 2 ^ bits * 2 ^ p.unitExponent := by
  have hone : 1 ≤ 2 * full p := by
    have hpos := full_pos p
    omega
  obtain ⟨r, hr⟩ := exists_units hone (bits + p.unitExponent)
  exact ⟨r, by rw [hr, Nat.one_mul, Nat.pow_add]⟩

theorem fits_of_lt {bits rank : Nat} (h : units p rank < 2 ^ bits * 2 ^ p.unitExponent) :
    Fits bits p rank := by
  intro n hn
  by_contra hlarge
  obtain ⟨r, hr⟩ := exists_units_pow p bits
  have hnear := nearest_plainConstant p rank
  have hend := nearest_units p r
  rw [hn, Constant.number] at hnear
  rw [hr] at hend
  have hle : ((2 ^ bits * 2 ^ p.unitExponent : Nat) : ℚ) ≤ (n : ℚ) * 2 ^ p.unitExponent := by
    exact_mod_cast Nat.mul_le_mul_right _ (Nat.le_of_not_lt hlarge)
  have hrank := hend.mono hnear hle
  have hunits := (units_strictMono p).monotone hrank
  omega

/-- The digits of a constant with a point are so few that its number is not large. -/
theorem number_point_lt {rank digits places : Nat}
    (h : plainConstant p rank = .point digits places) :
    (plainConstant p rank).number < 2 ^ 57 := by
  have hr := rank_pos_of_point h
  have hfew := (shortest_spec p .upper hr).2
  have hcount : 10 ^ p.decimalDigits < 2 ^ 57 := by cases p <;> decide
  rw [h, Constant.number]
  rw [plainConstant, if_neg (Nat.ne_of_gt hr), constantOf] at h
  split at h
  · cases h
  · obtain ⟨rfl, -⟩ := Constant.point.inj h
    have hdigits : ((shortest p .upper rank).digits : ℚ) < 2 ^ 57 := by
      exact_mod_cast hfew.trans_lt hcount
    exact (div_le_self (by positivity) (one_le_pow₀ (by norm_num))).trans_lt hdigits

theorem not_fits_of_gt {bits rank : Nat} (hbits : 57 ≤ bits)
    (h : 2 ^ bits * 2 ^ p.unitExponent < units p rank) : ¬Fits bits p rank := by
  intro hfits
  obtain ⟨r, hr⟩ := exists_units_pow p bits
  have hnear := nearest_plainConstant p rank
  have hend := nearest_units p r
  rw [hr] at hend
  have hrank : r < rank := by
    rw [← (units_strictMono p).lt_iff_lt, hr]
    exact h
  have hlt : (2 ^ bits : ℚ) < (plainConstant p rank).number := by
    have hunits := hend.lt_of_lt hnear hrank
    push_cast at hunits
    exact lt_of_mul_lt_mul_right hunits (unit_pos p).le
  -- So large a number is whole: with a point it would have too few digits.
  cases hc : plainConstant p rank with
  | whole n =>
    rw [hc, Constant.number] at hlt
    have hn : 2 ^ bits < n := by exact_mod_cast hlt
    exact absurd (hfits n hc) (Nat.not_lt.mpr hn.le)
  | point digits places =>
    have hsmall := number_point_lt hc
    have hpow : (2 : ℚ) ^ 57 ≤ 2 ^ bits := pow_le_pow_right₀ (by norm_num) hbits
    linarith

end NeuronKernels.PlainConstants
