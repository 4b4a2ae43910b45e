import Mathlib.Algebra.Order.Field.Basic
import Mathlib.Algebra.Order.Field.Rat
import Mathlib.Order.Monotone.Basic
import Mathlib.Tactic.Linarith
import Mathlib.Tactic.Positivity
import Mathlib.Tactic.Ring
import NeuronKernels.ShortestDecimal

/-!
# Rounding as intervals

The finite magnitudes come in blocks of equal steps: rank `s * full + q` stands for `q` steps of
`2 ^ s` units (`units_block`). A number rounds to a rank exactly when it lies in the interval of
that rank, half of the way to either neighbour and with its ends only for even ranks
(`rankNear_eq_iff`). Everything else about rounding follows from the intervals: it is monotone, and
it fixes the magnitudes.
-/

namespace NeuronKernels.RoundingIntervals
open BinaryFloat ShortestDecimal

variable {p : Precision}

/-- The least significand of full length; from here on the steps double with every block. -/
def full (p : Precision) : Nat := twoTo p.fractionBits

theorem twoTo_eq (n : Nat) : twoTo n = 2 ^ n := rfl

theorem full_pos (p : Precision) : 0 < full p := Nat.two_pow_pos _

theorem full_even (p : Precision) : full p % 2 = 0 := by
  cases p <;> rfl

theorem units_eq (p : Precision) (rank : Nat) :
    units p rank = if rank < full p then rank
      else (full p + rank % full p) * 2 ^ (rank / full p - 1) := rfl

theorem units_of_lt_full {rank : Nat} (h : rank < full p) : units p rank = rank := by
  rw [units_eq, if_pos h]

theorem units_in_block (s : Nat) {f : Nat} (hf : f < full p) :
    units p ((s + 1) * full p + f) = (full p + f) * 2 ^ s := by
  have hlarge : ¬ (s + 1) * full p + f < full p := by
    rw [Nat.add_mul, Nat.one_mul]
    omega
  have hmod : ((s + 1) * full p + f) % full p = f := by
    rw [Nat.add_comm, Nat.add_mul_mod_self_right, Nat.mod_eq_of_lt hf]
  have hdiv : ((s + 1) * full p + f) / full p = s + 1 := by
    rw [Nat.add_comm, Nat.add_mul_div_right _ _ (full_pos p), Nat.div_eq_of_lt hf, Nat.zero_add]
  rw [units_eq, if_neg hlarge, hmod, hdiv, Nat.add_sub_cancel]

/-- A significand of full length, or a first rank, with its number of doublings; the end of a block
is the start of the next one. -/
theorem units_block {s q : Nat} (hq : q ≤ 2 * full p) (hs : s = 0 ∨ full p ≤ q) :
    units p (s * full p + q) = q * 2 ^ s := by
  by_cases hsmall : q < full p
  · obtain rfl : s = 0 := by omega
    simpa using units_of_lt_full hsmall
  · obtain ⟨f, rfl⟩ := Nat.exists_eq_add_of_le (Nat.le_of_not_lt hsmall)
    by_cases hf : f < full p
    · have hrank : s * full p + (full p + f) = (s + 1) * full p + f := by ring
      rw [hrank, units_in_block s hf]
    · obtain rfl : f = full p := by omega
      have hrank : s * full p + (full p + full p) = (s + 1 + 1) * full p + 0 := by ring
      rw [hrank, units_in_block (s + 1) (full_pos p)]
      ring

theorem exists_block (p : Precision) (rank : Nat) :
    ∃ s q, rank = s * full p + q ∧ q < 2 * full p ∧ (s = 0 ∨ full p ≤ q) := by
  by_cases hsmall : rank < full p
  · exact ⟨0, rank, by omega, by omega, .inl rfl⟩
  · have hdiv := Nat.div_add_mod rank (full p)
    have hmod := Nat.mod_lt rank (full_pos p)
    obtain ⟨s, hs⟩ : ∃ s, rank / full p = s + 1 := by
      refine Nat.exists_eq_succ_of_ne_zero (Nat.ne_zero_of_lt (Nat.div_pos ?_ (full_pos p)))
      omega
    refine ⟨s, full p + rank % full p, ?_, by omega, .inr (by omega)⟩
    rw [hs] at hdiv
    rw [← hdiv]
    simp only [Nat.mul_add_mod, Nat.mod_mod]
    ring

/-- The step behind a rank. -/
theorem units_succ {s q : Nat} (hq : q < 2 * full p) (hs : s = 0 ∨ full p ≤ q) :
    units p (s * full p + q + 1) = units p (s * full p + q) + 2 ^ s := by
  rw [Nat.add_assoc, units_block (by omega) (by omega), units_block (by omega) hs]
  ring

theorem units_strictMono (p : Precision) : StrictMono (units p) := by
  refine strictMono_nat_of_lt_succ fun rank => ?_
  obtain ⟨s, q, rfl, hq, hs⟩ := exists_block p rank
  rw [units_succ hq hs]
  exact Nat.lt_add_of_pos_right (Nat.two_pow_pos s)

theorem units_zero (p : Precision) : units p 0 = 0 := units_of_lt_full (full_pos p)

theorem units_pos {rank : Nat} (h : 0 < rank) : 0 < units p rank := by
  have hmono := units_strictMono p h
  rwa [units_zero] at hmono

/-- The steps on both sides of a rank: the one behind it is no smaller, and a magnitude is at most
as many steps as a significand can have. -/
theorem steps_around {rank : Nat} (h : 0 < rank) :
    ∃ step, units p rank = units p (rank - 1) + step ∧ units p rank + step ≤ units p (rank + 1) ∧
      units p rank ≤ 2 * full p * step ∧ 0 < step := by
  obtain ⟨before, rfl⟩ := Nat.exists_eq_succ_of_ne_zero (Nat.ne_zero_of_lt h)
  obtain ⟨s, q, rfl, hq, hs⟩ := exists_block p before
  refine ⟨2 ^ s, units_succ hq hs, ?_, ?_, Nat.two_pow_pos s⟩
  · by_cases hlast : q + 1 < 2 * full p
    · exact (units_succ hlast (hs.imp_right (Nat.le_succ_of_le ·))).symm.le
    · have hrank : s * full p + q + 1 = (s + 1) * full p + full p := by
        rw [Nat.add_mul]
        omega
      rw [Nat.succ_eq_add_one, hrank, units_succ (by have := full_pos p; omega) (.inr le_rfl)]
      gcongr
      · norm_num
      · omega
  · rw [Nat.succ_eq_add_one, Nat.add_assoc, units_block (by omega) (by omega)]
    gcongr
    omega

/-- The number of units lies in the interval of the rank. -/
structure Nearest (p : Precision) (rank : Nat) (x : ℚ) : Prop where
  lower : (lowerTwice p rank : ℚ) ≤ 2 * x
  upper : 2 * x ≤ upperTwice p rank
  inside : rank % 2 = 1 → (lowerTwice p rank : ℚ) < 2 * x ∧ 2 * x < upperTwice p rank

theorem upperTwice_le_lowerTwice {r r' : Nat} (h : r < r') :
    upperTwice p r ≤ lowerTwice p r' := by
  have hfirst : units p r ≤ units p (r' - 1) := (units_strictMono p).monotone (by omega)
  have hsecond : units p (r + 1) ≤ units p r' := (units_strictMono p).monotone h
  exact Nat.add_le_add hfirst hsecond

/-- A later rank has the later numbers; neighbours have no number in common, because one of them is
odd. -/
theorem Nearest.lt_of_lt {r r' : Nat} {x y : ℚ} (hx : Nearest p r x) (hy : Nearest p r' y)
    (h : r < r') : x < y := by
  have hends : (upperTwice p r : ℚ) ≤ lowerTwice p r' := by
    exact_mod_cast upperTwice_le_lowerTwice h
  by_cases hodd : r % 2 = 1
  · have hx' := (hx.inside hodd).2
    have hy' := hy.lower
    linarith
  · by_cases hodd' : r' % 2 = 1
    · have hx' := hx.upper
      have hy' := (hy.inside hodd').1
      linarith
    · have hapart : upperTwice p r < lowerTwice p r' := by
        have hfirst : units p r < units p (r' - 1) := units_strictMono p (by omega)
        have hsecond : units p (r + 1) ≤ units p r' := (units_strictMono p).monotone h
        exact Nat.add_lt_add_of_lt_of_le hfirst hsecond
      have hapart' : (upperTwice p r : ℚ) < lowerTwice p r' := by exact_mod_cast hapart
      have hx' := hx.upper
      have hy' := hy.lower
      linarith

theorem Nearest.unique {r r' : Nat} {x : ℚ} (h : Nearest p r x) (h' : Nearest p r' x) : r = r' := by
  obtain hlt | heq | hgt := Nat.lt_trichotomy r r'
  · exact absurd (h.lt_of_lt h' hlt) (lt_irrefl x)
  · exact heq
  · exact absurd (h'.lt_of_lt h hgt) (lt_irrefl x)

theorem Nearest.mono {r r' : Nat} {x y : ℚ} (h : Nearest p r x) (h' : Nearest p r' y)
    (hxy : x ≤ y) : r ≤ r' := by
  by_contra hlt
  exact absurd (h'.lt_of_lt h (Nat.lt_of_not_le hlt)) (not_lt.mpr hxy)

theorem nearest_units (p : Precision) (rank : Nat) : Nearest p rank (units p rank) := by
  have hlower : (units p (rank - 1) : ℚ) ≤ units p rank := by
    exact_mod_cast (units_strictMono p).monotone (Nat.sub_le rank 1)
  have hupper : (units p rank : ℚ) < units p (rank + 1) := by
    exact_mod_cast units_strictMono p (Nat.lt_succ_self rank)
  refine ⟨?_, ?_, fun hodd => ⟨?_, ?_⟩⟩
  · push_cast [lowerTwice]
    linarith
  · push_cast [upperTwice]
    linarith
  · have hstrict : (units p (rank - 1) : ℚ) < units p rank := by
      exact_mod_cast units_strictMono p (by omega)
    push_cast [lowerTwice]
    linarith
  · push_cast [upperTwice]
    linarith

/-- What `nearestEven` gives is off by at most a half, and if by a half, it is even. -/
theorem nearestEven_spec (num : Nat) {den : Nat} (hd : 0 < den) :
    2 * (nearestEven num den * den) ≤ 2 * num + den ∧
      2 * num ≤ 2 * (nearestEven num den * den) + den ∧
      (nearestEven num den % 2 = 1 →
        2 * (nearestEven num den * den) < 2 * num + den ∧
          2 * num < 2 * (nearestEven num den * den) + den) := by
  have hdiv := Nat.div_add_mod' num den
  have hmod := Nat.mod_lt num hd
  have hup : (num / den + 1) * den = num / den * den + den := Nat.succ_mul _ _
  simp only [nearestEven]
  split
  · omega
  · split
    · rw [hup]
      omega
    · split
      · omega
      · rw [hup]
        omega

theorem le_nearestEven (num den : Nat) : num / den ≤ nearestEven num den := by
  simp only [nearestEven]
  split <;> [omega; (split <;> [omega; (split <;> omega)])]

theorem nearestEven_le (num den : Nat) : nearestEven num den ≤ num / den + 1 := by
  simp only [nearestEven]
  split <;> [omega; (split <;> [omega; (split <;> omega)])]

theorem rankNear_of_lt {num den : Nat} (h : num / den < 2 * full p) :
    rankNear p num den = nearestEven num den := by
  have hsmall : num / den < twoTo (p.fractionBits + 1) := by
    rwa [twoTo_eq, Nat.pow_succ, Nat.mul_comm]
  have hstep : den * twoTo 0 = den := Nat.mul_one den
  simp only [rankNear, hsmall, if_true, Nat.zero_mul, Nat.zero_add, hstep]

theorem rankNear_of_le {num den s : Nat} (h : 2 * full p ≤ num / den)
    (hs : Nat.log2 (num / den) = p.fractionBits + s) :
    rankNear p num den = s * full p + nearestEven num (den * 2 ^ s) := by
  have hlarge : ¬ num / den < twoTo (p.fractionBits + 1) := by
    rw [twoTo_eq, Nat.pow_succ, Nat.mul_comm]
    exact Nat.not_lt.mpr h
  simp only [rankNear, hlarge, if_false, hs, Nat.add_sub_cancel_left]
  rfl

/-- The block that a number is rounded in. Behind the first block the number is itself no smaller
than the start of its block. -/
theorem rankNear_block (p : Precision) (num : Nat) {den : Nat} (hd : 0 < den) :
    ∃ s, rankNear p num den = s * full p + nearestEven num (den * 2 ^ s) ∧
      nearestEven num (den * 2 ^ s) ≤ 2 * full p ∧
      (s = 0 ∨ full p ≤ nearestEven num (den * 2 ^ s) ∧ full p * (den * 2 ^ s) ≤ num) := by
  by_cases hsmall : num / den < 2 * full p
  · have hle := nearestEven_le num den
    refine ⟨0, by simp [rankNear_of_lt hsmall], ?_, .inl rfl⟩
    simp only [Nat.pow_zero, Nat.mul_one]
    omega
  · have hlarge := Nat.le_of_not_lt hsmall
    set whole := num / den with hwhole
    have hlog : 2 ^ Nat.log2 whole ≤ whole ∧ whole < 2 ^ (Nat.log2 whole + 1) := by
      refine ⟨Nat.log2_self_le ?_, Nat.lt_log2_self⟩
      have hpos := full_pos p
      omega
    obtain ⟨s, hs⟩ : ∃ s, Nat.log2 whole = p.fractionBits + s := by
      refine Nat.exists_eq_add_of_le ?_
      by_contra hlt
      have hpow : 2 ^ (Nat.log2 whole + 1) ≤ full p :=
        Nat.pow_le_pow_right (by omega) (by omega)
      omega
    have hstart : full p * (den * 2 ^ s) ≤ num := by
      calc full p * (den * 2 ^ s) = 2 ^ Nat.log2 whole * den := by
            rw [hs, full, twoTo_eq, Nat.pow_add]
            ring
        _ ≤ whole * den := Nat.mul_le_mul_right den hlog.1
        _ ≤ num := Nat.div_mul_le_self num den
    have hend : num < 2 * full p * (den * 2 ^ s) := by
      calc num < (whole + 1) * den := by
            rw [hwhole, Nat.mul_comm]
            exact Nat.lt_mul_div_succ num hd
        _ ≤ 2 ^ (Nat.log2 whole + 1) * den := Nat.mul_le_mul_right den hlog.2
        _ = 2 * full p * (den * 2 ^ s) := by
            rw [hs, full, twoTo_eq, Nat.pow_succ, Nat.pow_add]
            ring
    have hstep : 0 < den * 2 ^ s := Nat.mul_pos hd (Nat.two_pow_pos s)
    have hlow := (Nat.le_div_iff_mul_le hstep).mpr hstart
    have hhigh := (Nat.div_lt_iff_lt_mul hstep).mpr hend
    have hle := nearestEven_le num (den * 2 ^ s)
    have hge := le_nearestEven num (den * 2 ^ s)
    exact ⟨s, rankNear_of_le hlarge hs, by omega, .inr ⟨by omega, hstart⟩⟩

/-- The next magnitude is a step away or more. -/
theorem next_block {s q : Nat} (hq : q ≤ 2 * full p) (hs : s = 0 ∨ full p ≤ q) :
    (q + 1) * 2 ^ s ≤ units p (s * full p + q + 1) := by
  by_cases hlast : q < 2 * full p
  · rw [units_succ hlast hs, units_block hq hs, Nat.succ_mul]
  · have hpos := full_pos p
    have hrank : s * full p + q + 1 = (s + 1) * full p + (full p + 1) := by
      rw [Nat.add_mul]
      omega
    rw [hrank, units_block (by omega) (by omega), Nat.pow_succ]
    calc (q + 1) * 2 ^ s ≤ (full p + 1) * 2 * 2 ^ s := Nat.mul_le_mul_right _ (by omega)
      _ = (full p + 1) * (2 ^ s * 2) := by ring

/-- The magnitude before is just a step away, but at the start of a block. -/
theorem previous_block {s q : Nat} (hq : q ≤ 2 * full p) (hs : s = 0 ∨ full p < q) (hpos : 0 < q) :
    units p (s * full p + q - 1) + 2 ^ s = q * 2 ^ s := by
  have hrank : s * full p + q - 1 = s * full p + (q - 1) := by omega
  rw [hrank, units_block (by omega) (by omega), ← Nat.succ_mul]
  congr 1
  omega

/-- A number is `q` steps of `2 ^ s` units, rounded: it is half a step away at most, and less than
that when `q` is odd. -/
structure Steps (s q : Nat) (x : ℚ) : Prop where
  lower : 2 * ((q : ℚ) * 2 ^ s) ≤ 2 * x + 2 ^ s
  upper : 2 * x ≤ 2 * ((q : ℚ) * 2 ^ s) + 2 ^ s
  inside : q % 2 = 1 →
    2 * ((q : ℚ) * 2 ^ s) < 2 * x + 2 ^ s ∧ 2 * x < 2 * ((q : ℚ) * 2 ^ s) + 2 ^ s

theorem steps_nearestEven (s num : Nat) {den : Nat} (hd : 0 < den) :
    Steps s (nearestEven num (den * 2 ^ s)) ((num : ℚ) / den) := by
  obtain ⟨hlow, hhigh, hodd⟩ := nearestEven_spec num (Nat.mul_pos hd (Nat.two_pow_pos s))
  generalize nearestEven num (den * 2 ^ s) = q at *
  have hd' : (0 : ℚ) < den := by exact_mod_cast hd
  have hx : (num : ℚ) / den * den = num := div_mul_cancel₀ _ hd'.ne'
  generalize (num : ℚ) / den = x at *
  have hleft : 2 * ((q : ℚ) * 2 ^ s) * den = ((2 * (q * (den * 2 ^ s)) : Nat) : ℚ) := by
    push_cast
    ring
  have hright : (2 * x + 2 ^ s) * den = ((2 * num + den * 2 ^ s : Nat) : ℚ) := by
    push_cast
    rw [← hx]
    ring
  have hleft' : 2 * x * den = ((2 * num : Nat) : ℚ) := by
    push_cast
    rw [← hx]
    ring
  have hright' : (2 * ((q : ℚ) * 2 ^ s) + 2 ^ s) * den =
      ((2 * (q * (den * 2 ^ s)) + den * 2 ^ s : Nat) : ℚ) := by
    push_cast
    ring
  refine ⟨?_, ?_, fun hq => ⟨?_, ?_⟩⟩
  · refine le_of_mul_le_mul_right ?_ hd'
    rw [hleft, hright]
    exact_mod_cast hlow
  · refine le_of_mul_le_mul_right ?_ hd'
    rw [hleft', hright']
    exact_mod_cast hhigh
  · refine lt_of_mul_lt_mul_right ?_ hd'.le
    rw [hleft, hright]
    exact_mod_cast (hodd hq).1
  · refine lt_of_mul_lt_mul_right ?_ hd'.le
    rw [hleft', hright']
    exact_mod_cast (hodd hq).2

/-- Below, the interval ends half a step away but at the start of a block, where the number must not
be smaller than the magnitude, and at zero. -/
theorem lowerTwice_block {s q : Nat} {x : ℚ} (hq : q ≤ 2 * full p)
    (hs : s = 0 ∨ full p ≤ q ∧ (full p : ℚ) * 2 ^ s ≤ x) :
    (lowerTwice p (s * full p + q) : ℚ) + 2 ^ s = 2 * (q * 2 ^ s) ∨
      (lowerTwice p (s * full p + q) : ℚ) < 2 * x ∨ s * full p + q = 0 := by
  have hblock : s = 0 ∨ full p ≤ q := hs.imp_right And.left
  have hunits : (units p (s * full p + q) : ℚ) = q * 2 ^ s := by
    exact_mod_cast units_block hq hblock
  obtain hzero | hpos := Nat.eq_zero_or_pos (s * full p + q)
  · exact .inr (.inr hzero)
  by_cases hstart : s = 0 ∨ full p < q
  · have hq' : 0 < q := by
      obtain rfl | hlt := hstart
      · simpa using hpos
      · omega
    have hprevious : (units p (s * full p + q - 1) : ℚ) + 2 ^ s = q * 2 ^ s := by
      exact_mod_cast previous_block hq hstart hq'
    left
    push_cast [lowerTwice]
    linarith
  · obtain ⟨hfull, hx⟩ := hs.resolve_left fun h => hstart (.inl h)
    obtain rfl : q = full p := by omega
    have hprevious : (units p (s * full p + full p - 1) : ℚ) < units p (s * full p + full p) := by
      exact_mod_cast units_strictMono p (by omega)
    right; left
    push_cast [lowerTwice]
    linarith

theorem Steps.nearest {s q : Nat} {x : ℚ} (h : Steps s q x) (hx : 0 ≤ x) (hq : q ≤ 2 * full p)
    (hs : s = 0 ∨ full p ≤ q ∧ (full p : ℚ) * 2 ^ s ≤ x) : Nearest p (s * full p + q) x := by
  have hblock : s = 0 ∨ full p ≤ q := hs.imp_right And.left
  have hparity : (s * full p + q) % 2 = q % 2 := by
    rw [Nat.add_mod, Nat.mul_mod, full_even]
    simp
  have hunits : (units p (s * full p + q) : ℚ) = q * 2 ^ s := by
    exact_mod_cast units_block hq hblock
  have hnext : ((q : ℚ) + 1) * 2 ^ s ≤ units p (s * full p + q + 1) := by
    exact_mod_cast next_block hq hblock
  have hupper : 2 * ((q : ℚ) * 2 ^ s) + 2 ^ s ≤ upperTwice p (s * full p + q) := by
    push_cast [upperTwice]
    linarith
  refine ⟨?_, h.upper.trans hupper, fun hodd => ⟨?_, ?_⟩⟩
  · obtain hend | hlt | hzero := lowerTwice_block hq hs
    · linarith [h.lower]
    · exact hlt.le
    · have hends : lowerTwice p 0 = 0 := by simp [lowerTwice, units_zero]
      rw [hzero, hends, Nat.cast_zero]
      linarith
  · obtain hend | hlt | hzero := lowerTwice_block hq hs
    · linarith [(h.inside (hparity ▸ hodd)).1]
    · exact hlt
    · omega
  · exact (h.inside (hparity ▸ hodd)).2.trans_le hupper

/-- A number lies in the interval of the rank it is rounded to. -/
theorem nearest_rankNear (p : Precision) (num : Nat) {den : Nat} (hd : 0 < den) :
    Nearest p (rankNear p num den) ((num : ℚ) / den) := by
  obtain ⟨s, hrank, hq, hs⟩ := rankNear_block p num hd
  have hd' : (0 : ℚ) < den := by exact_mod_cast hd
  rw [hrank]
  refine (steps_nearestEven s num hd).nearest (by positivity) hq (hs.imp_right fun h => ⟨h.1, ?_⟩)
  have hreach : (full p : ℚ) * (den * 2 ^ s) ≤ num := by exact_mod_cast h.2
  rw [le_div_iff₀ hd']
  linarith

/-- Rounding finds the interval that the number lies in. -/
theorem rankNear_eq_iff {num den rank : Nat} (hd : 0 < den) :
    rankNear p num den = rank ↔ Nearest p rank ((num : ℚ) / den) := by
  constructor
  · rintro rfl
    exact nearest_rankNear p num hd
  · exact (nearest_rankNear p num hd).unique

theorem rankNear_mono {num den num' den' : Nat} (hd : 0 < den) (hd' : 0 < den')
    (h : (num : ℚ) / den ≤ num' / den') : rankNear p num den ≤ rankNear p num' den' :=
  (nearest_rankNear p num hd).mono (nearest_rankNear p num' hd') h

theorem rankNear_units (p : Precision) (rank : Nat) : rankNear p (units p rank) 1 = rank := by
  rw [rankNear_eq_iff Nat.one_pos, Nat.cast_one, div_one]
  exact nearest_units p rank

/-- A significand that is not too long, doubled any number of times, is a magnitude. -/
theorem exists_units {m : Nat} (hm : m ≤ 2 * full p) (k : Nat) :
    ∃ rank, units p rank = m * 2 ^ k := by
  have hform : ∃ s q, q ≤ 2 * full p ∧ (s = 0 ∨ full p ≤ q) ∧ q * 2 ^ s = m * 2 ^ k := by
    induction k with
    | zero => exact ⟨0, m, hm, .inl rfl, rfl⟩
    | succ k ih =>
      obtain ⟨s, q, hq, hs, heq⟩ := ih
      by_cases hfull : full p ≤ q
      · exact ⟨s + 1, q, hq, .inr hfull, by rw [Nat.pow_succ, Nat.pow_succ, ← Nat.mul_assoc, heq,
          Nat.mul_assoc]⟩
      · obtain rfl : s = 0 := by omega
        refine ⟨0, 2 * q, by omega, .inl rfl, ?_⟩
        rw [Nat.pow_succ, ← Nat.mul_assoc, ← heq]
        ring
  obtain ⟨s, q, hq, hs, heq⟩ := hform
  exact ⟨s * full p + q, (units_block hq hs).trans heq⟩

end NeuronKernels.RoundingIntervals
