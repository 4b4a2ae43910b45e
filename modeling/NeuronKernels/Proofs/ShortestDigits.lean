import Mathlib.Algebra.Order.Field.Power
import Mathlib.Tactic.FieldSimp
import Mathlib.Tactic.LinearCombination
import NeuronKernels.Proofs.RoundingIntervals

/-!
# The shortest digits read back

A decimal reads back to a rank exactly when it lies in the interval of the rank (`readsBack_iff`).
The grid of seventeen digits, or nine in single precision, is finer than any interval is wide
(`onGrid_ne_none`), so the search always ends at a point that reads back and never falls through
(`shortest_spec`). The zeros that are dropped at the end do not change the value.
-/

namespace NeuronKernels.ShortestDigits
open BinaryFloat RoundingIntervals ShortestDecimal

variable {p : Precision} {tie : Tie} {rank : Nat}

/-- A decimal in units of the precision. -/
def inUnits (p : Precision) (d : Decimal) : ℚ := d.digits * 10 ^ d.exponent * 2 ^ p.unitExponent

theorem tenTo_eq (n : Nat) : tenTo n = 10 ^ n := rfl

theorem ten_zpow_pos (e : ℤ) : (0 : ℚ) < 10 ^ e := zpow_pos (by norm_num) e

theorem unit_pos (p : Precision) : (0 : ℚ) < 2 ^ p.unitExponent := pow_pos (by norm_num) _

theorem ten_zpow_toNat {e : ℤ} (h : 0 ≤ e) : (10 : ℚ) ^ e = 10 ^ e.toNat := by
  rw [← zpow_natCast, Int.toNat_of_nonneg h]

theorem ten_zpow_mul_toNat_neg {e : ℤ} (h : ¬ 0 ≤ e) : (10 : ℚ) ^ e * 10 ^ (-e).toNat = 1 := by
  rw [← zpow_natCast, Int.toNat_of_nonneg (by omega), ← zpow_add₀ (by norm_num)]
  simp

/-- Both sides of a comparison are brought to whole numbers by the same factor. -/
theorem scaled_spec (p : Precision) (d : Decimal) (twice : Nat) :
    ∃ c : ℚ, 0 < c ∧ ((scaled p d twice).1 : ℚ) = 2 * inUnits p d * c ∧
      ((scaled p d twice).2 : ℚ) = twice * c := by
  by_cases he : 0 ≤ d.exponent
  · refine ⟨1, one_pos, ?_, by simp [scaled, he]⟩
    simp only [scaled, he, if_true, tenTo_eq, twoTo_eq, inUnits, ten_zpow_toNat he]
    push_cast
    ring
  · refine ⟨10 ^ (-d.exponent).toNat, by positivity, ?_, ?_⟩
    · have hone := ten_zpow_mul_toNat_neg he
      simp only [scaled, he, if_false, twoTo_eq, inUnits]
      push_cast
      calc (d.digits : ℚ) * 2 ^ (p.unitExponent + 1)
          = d.digits * 2 ^ (p.unitExponent + 1) *
              (10 ^ d.exponent * 10 ^ (-d.exponent).toNat) := by rw [hone, mul_one]
        _ = 2 * (d.digits * 10 ^ d.exponent * 2 ^ p.unitExponent) * 10 ^ (-d.exponent).toNat := by
            ring
    · simp only [scaled, he, if_false, tenTo_eq]
      push_cast
      rfl

theorem scaled_le_iff (p : Precision) (d : Decimal) (twice : Nat) :
    ((scaled p d twice).1 ≤ (scaled p d twice).2 ↔ 2 * inUnits p d ≤ twice) ∧
      ((scaled p d twice).2 ≤ (scaled p d twice).1 ↔ (twice : ℚ) ≤ 2 * inUnits p d) := by
  obtain ⟨c, hc, hfirst, hsecond⟩ := scaled_spec p d twice
  constructor
  · rw [← Nat.cast_le (α := ℚ), hfirst, hsecond, mul_le_mul_iff_left₀ hc]
  · rw [← Nat.cast_le (α := ℚ), hfirst, hsecond, mul_le_mul_iff_left₀ hc]

/-- To read back is to lie in the interval of the rank. -/
theorem readsBack_iff (p : Precision) (rank : Nat) (d : Decimal) :
    readsBack p rank d = true ↔ Nearest p rank (inUnits p d) := by
  obtain ⟨-, hlow⟩ := scaled_le_iff p d (lowerTwice p rank)
  obtain ⟨hlow', -⟩ := scaled_le_iff p d (lowerTwice p rank)
  obtain ⟨hhigh, hhigh'⟩ := scaled_le_iff p d (upperTwice p rank)
  simp only [readsBack]
  by_cases heven : rank % 2 = 0
  · simp only [heven, if_true, Bool.and_eq_true, decide_eq_true_eq, hlow, hhigh]
    exact ⟨fun h => ⟨h.1, h.2, fun hodd => by omega⟩, fun h => ⟨h.lower, h.upper⟩⟩
  · simp only [heven, if_false, Bool.and_eq_true, decide_eq_true_eq]
    rw [← not_le, ← not_le, hlow', hhigh', not_le, not_le]
    exact ⟨fun h => ⟨h.1.le, h.2.le, fun _ => h⟩, fun h => h.inside (by omega)⟩

/-- The point of a grid is a quotient of whole numbers that is in proportion to the magnitude. -/
theorem gridFloor_eq (p : Precision) (rank : Nat) (e : ℤ) :
    ∃ num den : Nat, 0 < den ∧ gridFloor p rank e = num / den ∧
      (num : ℚ) * (10 ^ e * 2 ^ p.unitExponent) = units p rank * den := by
  by_cases he : 0 ≤ e
  · refine ⟨units p rank, 2 ^ p.unitExponent * 10 ^ e.toNat, by positivity, ?_, ?_⟩
    · simp only [gridFloor, he, if_true, tenTo_eq, twoTo_eq]
    · push_cast [ten_zpow_toNat he]
      ring
  · refine ⟨units p rank * 10 ^ (-e).toNat, 2 ^ p.unitExponent, by positivity, ?_, ?_⟩
    · simp only [gridFloor, he, if_false, tenTo_eq, twoTo_eq]
    · push_cast
      linear_combination (units p rank : ℚ) * 2 ^ p.unitExponent * ten_zpow_mul_toNat_neg he

/-- The magnitude lies between two neighbours on a grid. -/
theorem gridFloor_spec (p : Precision) (rank : Nat) (e : ℤ) :
    inUnits p ⟨gridFloor p rank e, e⟩ ≤ units p rank ∧
      (units p rank : ℚ) < inUnits p ⟨gridFloor p rank e + 1, e⟩ := by
  obtain ⟨num, den, hd, hfloor, hratio⟩ := gridFloor_eq p rank e
  have hd' : (0 : ℚ) < den := by exact_mod_cast hd
  have hw : (0 : ℚ) < 10 ^ e * 2 ^ p.unitExponent := mul_pos (ten_zpow_pos e) (unit_pos p)
  have hlow : ((num / den : Nat) : ℚ) * den ≤ num := by exact_mod_cast Nat.div_mul_le_self num den
  have hhigh : (num : ℚ) < ((num / den : Nat) + 1) * den := by
    rw [mul_comm]
    exact_mod_cast Nat.lt_mul_div_succ num hd
  rw [hfloor]
  simp only [inUnits, mul_assoc]
  push_cast
  constructor
  · refine le_of_mul_le_mul_right ?_ hd'
    rw [← hratio]
    calc _ = ((num / den : Nat) : ℚ) * den * (10 ^ e * 2 ^ p.unitExponent) := by ring
      _ ≤ _ := mul_le_mul_of_nonneg_right hlow hw.le
  · refine lt_of_mul_lt_mul_right ?_ hd'.le
    rw [← hratio]
    calc _ < (((num / den : Nat) : ℚ) + 1) * den * (10 ^ e * 2 ^ p.unitExponent) :=
          mul_lt_mul_of_pos_right hhigh hw
      _ = _ := by ring

theorem lt_ten_pow_digitCount (n : Nat) : n < 10 ^ digitCount n :=
  (Nat.length_toDigits_le_iff (by decide) (List.length_pos_iff.mpr Nat.toDigits_ne_nil)).mp le_rfl

theorem digitCount_pos (n : Nat) : 0 < digitCount n := List.length_pos_iff.mpr Nat.toDigits_ne_nil

theorem ten_pow_le_of_digitCount {n c : Nat} (hn : 0 < n) (hc : digitCount n = c + 1) :
    10 ^ c ≤ n := by
  obtain rfl | hpos := Nat.eq_zero_or_pos c
  · exact hn
  · by_contra hlt
    have hle := (Nat.length_toDigits_le_iff (by decide) hpos).mpr (Nat.lt_of_not_le hlt)
    rw [digitCount] at hc
    omega

theorem leadingPlace_of_whole {p : Precision} {rank : Nat}
    (h : 0 < units p rank / 2 ^ p.unitExponent) :
    (10 : ℚ) ^ (leadingPlace p rank - 1) * 2 ^ p.unitExponent ≤ units p rank ∧
      (units p rank : ℚ) < 10 ^ leadingPlace p rank * 2 ^ p.unitExponent := by
  obtain ⟨c, hc⟩ := Nat.exists_eq_succ_of_ne_zero
    (Nat.ne_of_gt (digitCount_pos (units p rank / 2 ^ p.unitExponent)))
  have hplace : leadingPlace p rank = c + 1 := by
    simp only [leadingPlace, twoTo_eq, h, if_true, hc]
    push_cast
    rfl
  have hlow : 10 ^ c * 2 ^ p.unitExponent ≤ units p rank :=
    (Nat.le_div_iff_mul_le (by positivity)).mp (ten_pow_le_of_digitCount h hc)
  have hhigh : units p rank < 10 ^ (c + 1) * 2 ^ p.unitExponent := by
    refine (Nat.div_lt_iff_lt_mul (by positivity)).mp ?_
    rw [← Nat.succ_eq_add_one, ← hc]
    exact lt_ten_pow_digitCount _
  rw [hplace]
  constructor
  · rw [add_sub_cancel_right, zpow_natCast]
    exact_mod_cast hlow
  · exact_mod_cast hhigh

/-- How often a part goes into one, rounded up. -/
theorem inverse_spec {part one : Nat} (hp : 0 < part) (h : part < one) :
    let inverse := (one + part - 1) / part
    one ≤ inverse * part ∧ (inverse - 1) * part < one ∧ 0 < inverse - 1 := by
  intro inverse
  have hlt : one + part - 1 < inverse * part + part := by
    have hlt := Nat.lt_mul_div_succ (one + part - 1) hp
    rwa [Nat.mul_succ, Nat.mul_comm] at hlt
  have hle : inverse * part ≤ one + part - 1 := Nat.div_mul_le_self _ _
  refine ⟨by omega, ?_, ?_⟩
  · rw [Nat.sub_mul, Nat.one_mul]
    omega
  · by_contra hsmall
    have hmul : inverse * part ≤ 1 * part := Nat.mul_le_mul_right _ (by omega)
    omega

theorem leadingPlace_of_part {p : Precision} {rank : Nat} (hr : 0 < rank)
    (h : units p rank < 2 ^ p.unitExponent) :
    (10 : ℚ) ^ (leadingPlace p rank - 1) * 2 ^ p.unitExponent ≤ units p rank ∧
      (units p rank : ℚ) < 10 ^ leadingPlace p rank * 2 ^ p.unitExponent := by
  obtain ⟨hreach, hshort, htwo⟩ := inverse_spec (units_pos hr) h
  set inverse := (2 ^ p.unitExponent + units p rank - 1) / units p rank with hinverse
  obtain ⟨c, hc⟩ := Nat.exists_eq_succ_of_ne_zero (Nat.ne_of_gt (digitCount_pos (inverse - 1)))
  have hcount := lt_ten_pow_digitCount (inverse - 1)
  rw [hc, Nat.succ_eq_add_one] at hcount
  have hplace : leadingPlace p rank = -c := by
    have hwhole : ¬ 0 < units p rank / 2 ^ p.unitExponent := by
      rw [Nat.div_eq_of_lt h]
      exact lt_irrefl 0
    simp only [leadingPlace, twoTo_eq, hwhole, if_false, ← hinverse, hc]
    push_cast
    ring
  have hlow : 2 ^ p.unitExponent ≤ units p rank * 10 ^ (c + 1) := by
    calc 2 ^ p.unitExponent ≤ inverse * units p rank := hreach
      _ ≤ 10 ^ (c + 1) * units p rank := Nat.mul_le_mul_right _ (by omega)
      _ = units p rank * 10 ^ (c + 1) := Nat.mul_comm _ _
  have hhigh : units p rank * 10 ^ c < 2 ^ p.unitExponent := by
    calc units p rank * 10 ^ c = 10 ^ c * units p rank := Nat.mul_comm _ _
      _ ≤ (inverse - 1) * units p rank :=
        Nat.mul_le_mul_right _ (ten_pow_le_of_digitCount htwo hc)
      _ < 2 ^ p.unitExponent := hshort
  have hlow' : (2 : ℚ) ^ p.unitExponent ≤ units p rank * 10 ^ (c + 1) := by exact_mod_cast hlow
  have hhigh' : (units p rank : ℚ) * 10 ^ c < 2 ^ p.unitExponent := by exact_mod_cast hhigh
  have hprevious : (10 : ℚ) ^ (-(c : ℤ) - 1) = (10 ^ (c + 1))⁻¹ := by
    rw [← zpow_natCast, ← zpow_neg]
    congr 1
    push_cast
    ring
  rw [hplace, hprevious, zpow_neg, zpow_natCast, inv_mul_le_iff₀ (by positivity),
    lt_inv_mul_iff₀ (by positivity)]
  exact ⟨by linarith, by linarith⟩

/-- The leading digit of a magnitude stands at its place. -/
theorem leadingPlace_spec (p : Precision) {rank : Nat} (h : 0 < rank) :
    (10 : ℚ) ^ (leadingPlace p rank - 1) * 2 ^ p.unitExponent ≤ units p rank ∧
      (units p rank : ℚ) < 10 ^ leadingPlace p rank * 2 ^ p.unitExponent := by
  by_cases hwhole : 0 < units p rank / 2 ^ p.unitExponent
  · exact leadingPlace_of_whole hwhole
  · refine leadingPlace_of_part h ?_
    by_contra hlarge
    exact hwhole (Nat.div_pos (Nat.le_of_not_lt hlarge) (by positivity))

theorem nearer_cases (p : Precision) (tie : Tie) (rank below : Nat) (e : ℤ) :
    nearer p tie rank below e = below ∨ nearer p tie rank below e = below + 1 := by
  simp only [nearer]
  split
  · exact .inl rfl
  · split
    · exact .inr rfl
    · cases tie with
      | upper => exact .inr rfl
      | evenDigit =>
        simp only
        split
        · exact .inl rfl
        · exact .inr rfl

/-- What is found on a grid is one of the two neighbours there, and it reads back. -/
theorem of_onGrid_eq {e : ℤ} {d : Decimal} (h : onGrid p tie rank e = some d) :
    d.exponent = e ∧ d.digits ≤ gridFloor p rank e + 1 ∧ readsBack p rank d = true := by
  simp only [onGrid] at h
  split at h
  · next hbelow habove =>
    obtain rfl := Option.some.inj h
    obtain heq | heq := nearer_cases p tie rank (gridFloor p rank e) e
    · simp only [heq]
      exact ⟨trivial, Nat.le_succ _, hbelow⟩
    · simp only [heq]
      exact ⟨trivial, le_rfl, habove⟩
  · next hbelow _ =>
    obtain rfl := Option.some.inj h
    exact ⟨rfl, Nat.le_succ _, hbelow⟩
  · next _ habove =>
    obtain rfl := Option.some.inj h
    exact ⟨rfl, le_rfl, habove⟩
  · cases h

/-- Numbers that are closer to a magnitude than half of the step before it read back. -/
theorem nearest_of_close {step : Nat} {x : ℚ}
    (hbefore : units p rank = units p (rank - 1) + step)
    (hafter : units p rank + step ≤ units p (rank + 1)) (hlow : (units p rank : ℚ) - x < step / 2)
    (hhigh : x - units p rank < step / 2) : Nearest p rank x := by
  have hbefore' : (units p rank : ℚ) = units p (rank - 1) + step := by exact_mod_cast hbefore
  have hafter' : (units p rank : ℚ) + step ≤ units p (rank + 1) := by exact_mod_cast hafter
  have hlower : (lowerTwice p rank : ℚ) < 2 * x := by
    push_cast [lowerTwice]
    linarith
  have hupper : 2 * x < (upperTwice p rank : ℚ) := by
    push_cast [upperTwice]
    linarith
  exact ⟨hlower.le, hupper.le, fun _ => ⟨hlower, hupper⟩⟩

/-- A significand has fewer digits than the finest grid. -/
theorem full_lt_ten_pow (p : Precision) : 2 * full p < 10 ^ (p.decimalDigits - 1) := by
  cases p <;> decide

/-- The finest grid has a point in the interval of every rank. -/
theorem onGrid_ne_none (p : Precision) (tie : Tie) {rank : Nat} (h : 0 < rank) :
    onGrid p tie rank (leadingPlace p rank - p.decimalDigits) ≠ none := by
  obtain ⟨step, hbefore, hafter, hwide, hstep⟩ := steps_around (p := p) h
  obtain ⟨hplace, -⟩ := leadingPlace_spec p h
  set e := leadingPlace p rank - p.decimalDigits with he
  obtain ⟨hbelow, habove⟩ := gridFloor_spec p rank e
  have hgrid : inUnits p ⟨gridFloor p rank e + 1, e⟩ =
      inUnits p ⟨gridFloor p rank e, e⟩ + 10 ^ e * 2 ^ p.unitExponent := by
    simp only [inUnits]
    push_cast
    ring
  -- Neighbours on the grid are closer together than a step.
  have hfine : (10 : ℚ) ^ e * 2 ^ p.unitExponent < step := by
    have hdigits : leadingPlace p rank - 1 = e + (p.decimalDigits - 1 : Nat) := by
      have hpos : 1 ≤ p.decimalDigits := by cases p <;> decide
      rw [he, Nat.cast_sub hpos]
      push_cast
      ring
    have hpow : (2 * full p : ℚ) < 10 ^ (p.decimalDigits - 1) := by
      exact_mod_cast full_lt_ten_pow p
    have hwide' : (units p rank : ℚ) ≤ 2 * full p * step := by exact_mod_cast hwide
    have hstep' : (0 : ℚ) < step := by exact_mod_cast hstep
    rw [hdigits, zpow_add₀ (by norm_num), zpow_natCast] at hplace
    have hlt : 10 ^ e * 2 ^ p.unitExponent * 10 ^ (p.decimalDigits - 1) <
        (step : ℚ) * 10 ^ (p.decimalDigits - 1) := by
      calc (10 : ℚ) ^ e * 2 ^ p.unitExponent * 10 ^ (p.decimalDigits - 1)
          = 10 ^ e * 10 ^ (p.decimalDigits - 1) * 2 ^ p.unitExponent := by ring
        _ ≤ 2 * full p * step := hplace.trans hwide'
        _ < 10 ^ (p.decimalDigits - 1) * step := mul_lt_mul_of_pos_right hpow hstep'
        _ = step * 10 ^ (p.decimalDigits - 1) := mul_comm _ _
    exact lt_of_mul_lt_mul_right hlt (by positivity)
  -- So the nearer one is less than half a step away.
  have hreads : readsBack p rank ⟨gridFloor p rank e, e⟩ = true ∨
      readsBack p rank ⟨gridFloor p rank e + 1, e⟩ = true := by
    rw [readsBack_iff, readsBack_iff]
    by_cases hnear : (units p rank : ℚ) - inUnits p ⟨gridFloor p rank e, e⟩ < step / 2
    · exact .inl (nearest_of_close hbefore hafter hnear (by linarith))
    · exact .inr (nearest_of_close hbefore hafter (by linarith) (by linarith))
  simp only [onGrid]
  obtain hreads | hreads := hreads
  · cases readsBack p rank ⟨gridFloor p rank e + 1, e⟩ <;> simp [hreads]
  · cases readsBack p rank ⟨gridFloor p rank e, e⟩ <;> simp [hreads]

/-- The search ends at the first grid with a point, if that comes early enough. -/
theorem firstGrid_spec {place : ℤ} {more count fine : Nat} (hfrom : count ≤ fine)
    (hto : fine < count + more) (h : onGrid p tie rank (place - fine) ≠ none) :
    ∃ c ≤ fine, onGrid p tie rank (place - c) = some (firstGrid p tie rank place more count) := by
  induction more generalizing count with
  | zero => omega
  | succ more ih =>
    cases hgrid : onGrid p tie rank (place - count) with
    | some d => exact ⟨count, hfrom, by simp [firstGrid, hgrid]⟩
    | none =>
      have hne : count ≠ fine := by
        rintro rfl
        exact h hgrid
      have hmore : firstGrid p tie rank place (more + 1) count =
          firstGrid p tie rank place more (count + 1) := by
        simp [firstGrid, hgrid]
      rw [hmore]
      exact ih (by omega) (by omega)

theorem withoutZeros_spec (p : Precision) (fuel : Nat) (d : Decimal) :
    inUnits p (withoutZeros fuel d) = inUnits p d ∧ (withoutZeros fuel d).digits ≤ d.digits := by
  induction fuel generalizing d with
  | zero => exact ⟨rfl, le_rfl⟩
  | succ fuel ih =>
    rw [withoutZeros]
    split
    · next hzero =>
      obtain ⟨hvalue, hdigits⟩ := ih ⟨d.digits / 10, d.exponent + 1⟩
      refine ⟨hvalue.trans ?_, hdigits.trans (Nat.div_le_self _ _)⟩
      have hten : d.digits = d.digits / 10 * 10 := by omega
      have hten' : (d.digits : ℚ) = (d.digits / 10 : Nat) * 10 := by exact_mod_cast hten
      simp only [inUnits]
      rw [zpow_add₀ (by norm_num), zpow_one]
      linear_combination -((10 : ℚ) ^ d.exponent * 2 ^ p.unitExponent) * hten'
    · exact ⟨rfl, le_rfl⟩

/-- A grid of `c` digits has no point of more digits below the magnitude. -/
theorem gridFloor_lt (p : Precision) {rank : Nat} (h : 0 < rank) (c : Nat) :
    gridFloor p rank (leadingPlace p rank - c) < 10 ^ c := by
  obtain ⟨-, hplace⟩ := leadingPlace_spec p h
  obtain ⟨hbelow, -⟩ := gridFloor_spec p rank (leadingPlace p rank - c)
  have hsplit : (10 : ℚ) ^ leadingPlace p rank = 10 ^ c * 10 ^ (leadingPlace p rank - c) := by
    rw [← zpow_natCast, ← zpow_add₀ (by norm_num)]
    congr 1
    ring
  rw [hsplit, mul_assoc] at hplace
  rw [inUnits, mul_assoc] at hbelow
  have hpos : (0 : ℚ) < 10 ^ (leadingPlace p rank - c) * 2 ^ p.unitExponent :=
    mul_pos (ten_zpow_pos _) (unit_pos p)
  exact_mod_cast lt_of_mul_lt_mul_right (hbelow.trans_lt hplace) hpos.le

/-- The shortest decimal reads back, and it has no more digits than ever needed. -/
theorem shortest_spec (p : Precision) (tie : Tie) {rank : Nat} (h : 0 < rank) :
    Nearest p rank (inUnits p (shortest p tie rank)) ∧
      (shortest p tie rank).digits ≤ 10 ^ p.decimalDigits := by
  have hpos : 1 ≤ p.decimalDigits := by cases p <;> decide
  have hgrids : p.decimalDigits < 1 + p.decimalDigits := by omega
  obtain ⟨c, hc, hgrid⟩ := firstGrid_spec hpos hgrids (onGrid_ne_none p tie h)
  obtain ⟨-, hdigits, hreads⟩ := of_onGrid_eq hgrid
  obtain ⟨hvalue, hfewer⟩ := withoutZeros_spec p p.decimalDigits
    (firstGrid p tie rank (leadingPlace p rank) p.decimalDigits 1)
  constructor
  · rw [shortest, hvalue]
    exact (readsBack_iff p rank _).mp hreads
  · refine hfewer.trans (hdigits.trans ?_)
    exact (Nat.succ_le_of_lt (gridFloor_lt p h c)).trans (Nat.pow_le_pow_right (by decide) hc)

end NeuronKernels.ShortestDigits
