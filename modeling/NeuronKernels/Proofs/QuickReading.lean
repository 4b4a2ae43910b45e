import NeuronKernels.JsonReading
import NeuronKernels.Proofs.ShortestDigits

/-!
# Numbers read in the quick way

A whole number times a power of ten is read by rounding both and then their product or quotient.
When both are exact, this is one rounding (`scale_exact`), and the result is the nearest value. In
general the three roundings may end beside it, but what lies far enough below the largest value
cannot get too large on the way (`scale_ne_none`).
-/

namespace NeuronKernels.QuickReading
open BinaryFloat JsonReading RoundingIntervals ShortestDecimal ShortestDigits

variable {p : Precision}

theorem ten_zpow_natAbs {e : ℤ} (h : 0 ≤ e) : (10 : ℚ) ^ e = (tenTo e.natAbs : Nat) := by
  have habs : e.toNat = e.natAbs := by omega
  rw [ten_zpow_toNat h, habs, tenTo_eq]
  push_cast
  rfl

theorem ofNat_eq (p : Precision) (n : Nat) :
    (Value.ofNat n : Value p) = Value.ofRank false (rankNear p (n * 2 ^ p.unitExponent) 1) := rfl

theorem ofRank_of_lt {rank : Nat} (h : rank < p.finiteCount) (negative : Bool) :
    (Value.ofRank negative rank : Value p) = .finite negative ⟨rank, h⟩ := by
  rw [Value.ofRank, dif_pos h]

theorem isFinite_ofRank (negative : Bool) (rank : Nat) :
    (Value.ofRank negative rank : Value p).isFinite = true ↔ rank < p.finiteCount := by
  by_cases h : rank < p.finiteCount
  · simp [ofRank_of_lt h, Value.isFinite, h]
  · simp [Value.ofRank, Value.isFinite, h]

theorem ofRank_eq_finite_iff {negative : Bool} {r : Nat} {rank : Fin p.finiteCount} :
    (Value.ofRank negative r : Value p) = .finite negative rank ↔ r = rank := by
  constructor
  · intro h
    have hr : r < p.finiteCount := by
      rw [← isFinite_ofRank negative, h]
      rfl
    rw [ofRank_of_lt hr] at h
    exact congrArg Fin.val (Value.finite.inj h).2
  · rintro rfl
    exact ofRank_of_lt rank.isLt negative

/-- A number is rounded to the value in whose interval it lies. -/
theorem ofUnits_eq_finite_iff {negative : Bool} {num den : Nat} {rank : Fin p.finiteCount}
    (hd : 0 < den) :
    (Value.ofUnits negative num den : Value p) = .finite negative rank ↔
      Nearest p rank ((num : ℚ) / den) := by
  rw [Value.ofUnits, ofRank_eq_finite_iff, rankNear_eq_iff hd]

/-- A whole number that is a magnitude is not rounded. -/
theorem ofNat_exact {n rank : Nat} (h : units p rank = n * 2 ^ p.unitExponent) :
    (Value.ofNat n : Value p) = Value.ofRank false rank := by
  rw [ofNat_eq, ← h, rankNear_units]

/-- A product that is itself rounded just once. -/
theorem mul_ofRank {a b : Nat} (ha : a < p.finiteCount) (hb : b < p.finiteCount) :
    (Value.ofRank false a : Value p).mul (Value.ofRank false b) =
      Value.ofRank false (rankNear p (units p a * units p b) (2 ^ p.unitExponent)) := by
  rw [ofRank_of_lt ha, ofRank_of_lt hb]
  rfl

theorem div_ofRank {a b : Nat} (ha : a < p.finiteCount) (hb : b < p.finiteCount) (hne : b ≠ 0) :
    (Value.ofRank false a : Value p).div (Value.ofRank false b) =
      Value.ofRank false (rankNear p (units p a * 2 ^ p.unitExponent) (units p b)) := by
  rw [ofRank_of_lt ha, ofRank_of_lt hb]
  simp only [Value.div, hne, if_false]
  rfl

theorem scale_up {e : ℤ} (h : 0 ≤ e) (hle : e ≤ 308) (steps : Nat) (v : Value .double) :
    scale (steps + 1) v e =
      if (v.mul (powerOfTen e.natAbs)).isFinite then some (v.mul (powerOfTen e.natAbs))
      else none := by
  have habs : e.natAbs ≤ 308 := by omega
  simp only [scale, habs, if_true, h]

theorem scale_down {e : ℤ} (h : e < 0) (hle : -308 ≤ e) (steps : Nat) (v : Value .double) :
    scale (steps + 1) v e = some (v.div (powerOfTen e.natAbs)) := by
  have habs : e.natAbs ≤ 308 := by omega
  simp only [scale, habs, if_true, not_le.mpr h, if_false]

/-- Scaling down always ends with a value. -/
theorem isSome_scale_down (steps : Nat) (v : Value .double) {e : ℤ} (h : e < 0) :
    (scale steps v e).isSome = true := by
  induction steps generalizing v e with
  | zero => rfl
  | succ steps ih =>
    by_cases hle : -308 ≤ e
    · rw [scale_down h hle]
      rfl
    · have habs : ¬ e.natAbs ≤ 308 := by omega
      simp only [scale, habs, if_false, not_le.mpr h]
      split
      · rfl
      · exact ih _ (by omega)

/-- The rank of a power of ten that is a magnitude. -/
theorem exists_powerOfTen {k : Nat} (h : k ≤ 22) :
    ∃ rank, units .double rank = 10 ^ k * 2 ^ Precision.double.unitExponent := by
  have hfive : 5 ^ k ≤ 2 * full .double := by
    calc 5 ^ k ≤ 5 ^ 22 := Nat.pow_le_pow_right (by decide) h
      _ ≤ 2 * full .double := by decide
  obtain ⟨rank, hrank⟩ := exists_units hfive (k + Precision.double.unitExponent)
  refine ⟨rank, hrank.trans ?_⟩
  rw [show 10 = 5 * 2 from rfl, Nat.mul_pow, Nat.pow_add]
  ring

theorem lt_finiteCount {rank n : Nat}
    (h : units .double rank = n * 2 ^ Precision.double.unitExponent) (hn : n ≤ 10 ^ 22) :
    rank < Precision.double.finiteCount := by
  have hlarge : 10 ^ 22 * 2 ^ Precision.double.unitExponent <
      units .double Precision.double.finiteCount := by decide +kernel
  rw [← (units_strictMono .double).lt_iff_lt, h]
  exact (Nat.mul_le_mul_right _ hn).trans_lt hlarge

/-- A short number and a small power of ten are both exact, so the result is the nearest value. -/
theorem scale_exact {d : Decimal} {rank : Nat} (hd : d.digits ≤ 2 ^ 53)
    (he : d.exponent.natAbs ≤ 22) (hr : rank < Precision.double.finiteCount)
    (h : Nearest .double rank (inUnits .double d)) (steps : Nat) :
    scale (steps + 1) (Value.ofNat d.digits) d.exponent = some (Value.ofRank false rank) := by
  obtain ⟨a, ha⟩ := exists_units (p := .double) (m := d.digits) hd Precision.double.unitExponent
  obtain ⟨b, hb⟩ := exists_powerOfTen he
  have ha' : a < Precision.double.finiteCount :=
    lt_finiteCount ha (hd.trans (by norm_num))
  have hb' : b < Precision.double.finiteCount :=
    lt_finiteCount hb (Nat.pow_le_pow_right (by decide) he)
  have hpower : powerOfTen d.exponent.natAbs = Value.ofRank false b := ofNat_exact hb
  rw [ofNat_exact ha]
  by_cases hsign : 0 ≤ d.exponent
  · have hround : rankNear .double (units .double a * units .double b)
        (2 ^ Precision.double.unitExponent) = rank := by
      rw [rankNear_eq_iff (by positivity)]
      have hvalue : inUnits .double d = ((units .double a * units .double b : Nat) : ℚ) /
          (2 ^ Precision.double.unitExponent : Nat) := by
        rw [ha, hb, inUnits, ten_zpow_natAbs hsign, tenTo_eq, eq_div_iff (by positivity)]
        push_cast
        ring
      exact hvalue ▸ h
    rw [scale_up hsign (by omega), hpower, mul_ofRank ha' hb', hround,
      if_pos ((isFinite_ofRank false rank).mpr hr)]
  · have hb0 : b ≠ 0 := by
      rintro rfl
      rw [units_zero] at hb
      have hpos : 0 < 10 ^ d.exponent.natAbs * 2 ^ Precision.double.unitExponent := by positivity
      omega
    have hround : rankNear .double (units .double a * 2 ^ Precision.double.unitExponent)
        (units .double b) = rank := by
      rw [rankNear_eq_iff (units_pos (Nat.pos_of_ne_zero hb0))]
      have hvalue : inUnits .double d =
          ((units .double a * 2 ^ Precision.double.unitExponent : Nat) : ℚ) / units .double b := by
        have hone := ten_zpow_mul_toNat_neg hsign
        have habs : (-d.exponent).toNat = d.exponent.natAbs := by omega
        rw [habs] at hone
        rw [ha, hb, inUnits, eq_div_iff (by positivity)]
        push_cast
        linear_combination (d.digits : ℚ) * 2 ^ Precision.double.unitExponent *
          2 ^ Precision.double.unitExponent * hone
      exact hvalue ▸ h
    rw [scale_down (by omega) (by omega), hpower, div_ofRank ha' hb' hb0, hround]

/-- A magnitude of full length is not much larger than a number that is rounded to it. -/
theorem units_le_of_nearest {rank : Nat} {x : ℚ} (h : Nearest p rank x) (hr : full p ≤ rank) :
    (units p rank : ℚ) * (2 * full p - 1) ≤ 2 * full p * x := by
  obtain ⟨before, rfl⟩ := Nat.exists_eq_succ_of_ne_zero
    (Nat.ne_of_gt (Nat.lt_of_lt_of_le (full_pos p) hr))
  obtain ⟨s, q, rfl, hq, hs⟩ := exists_block p before
  have hlarge : full p ≤ q + 1 := by
    obtain rfl | hle := hs
    · omega
    · omega
  have hlarge' : (full p : ℚ) ≤ q + 1 := by exact_mod_cast hlarge
  have hbefore : units p (s * full p + q) = q * 2 ^ s := units_block (by omega) hs
  have hunits : units p (s * full p + q + 1) = (q + 1) * 2 ^ s := by
    rw [units_succ hq hs, hbefore, Nat.succ_mul]
  have hlow : (2 * (q : ℚ) + 1) * 2 ^ s ≤ 2 * x := by
    have hlower := h.lower
    rw [lowerTwice, Nat.succ_eq_add_one, Nat.add_sub_cancel, hunits, hbefore] at hlower
    push_cast at hlower
    linarith
  have hfull : (0 : ℚ) < full p := by exact_mod_cast full_pos p
  have hstep : (0 : ℚ) < 2 ^ s := by positivity
  rw [Nat.succ_eq_add_one, hunits]
  push_cast
  calc ((q : ℚ) + 1) * 2 ^ s * (2 * full p - 1)
      = (2 * full p * (q + 1) - (q + 1)) * 2 ^ s := by ring
    _ ≤ (2 * full p * (q + 1) - full p) * 2 ^ s :=
      mul_le_mul_of_nonneg_right (by linarith) hstep.le
    _ = full p * ((2 * q + 1) * 2 ^ s) := by ring
    _ ≤ full p * (2 * x) := mul_le_mul_of_nonneg_left hlow hfull.le
    _ = 2 * full p * x := by ring

theorem units_full (p : Precision) : units p (full p) = full p := by
  simpa using units_block (p := p) (s := 0) (q := full p) (by omega) (.inl rfl)

theorem tenTo_mono {m n : Nat} (h : m ≤ n) : tenTo m ≤ tenTo n :=
  Nat.pow_le_pow_right (by decide) h

/-- A whole number is rounded to a magnitude of full length that is not much larger. -/
theorem exists_ofNat {n limit : Nat} (hn : 0 < n) (hle : n ≤ limit)
    (hlimit : rankNear .double (limit * 2 ^ Precision.double.unitExponent) 1 <
      Precision.double.finiteCount) :
    ∃ rank < Precision.double.finiteCount,
      (Value.ofNat n : Value .double) = Value.ofRank false rank ∧
      (units .double rank : ℚ) * (2 * full .double - 1) ≤
        2 * full .double * (n * 2 ^ Precision.double.unitExponent) := by
  have hnearest := nearest_rankNear .double (n * 2 ^ Precision.double.unitExponent) Nat.one_pos
  have hbelow : rankNear .double (n * 2 ^ Precision.double.unitExponent) 1 ≤
      rankNear .double (limit * 2 ^ Precision.double.unitExponent) 1 := by
    refine rankNear_mono Nat.one_pos Nat.one_pos ?_
    rw [Nat.cast_one, div_one, div_one, Nat.cast_le]
    exact Nat.mul_le_mul_right _ hle
  have hfull : full .double ≤ rankNear .double (n * 2 ^ Precision.double.unitExponent) 1 := by
    have hbits : Precision.double.fractionBits ≤ Precision.double.unitExponent := by decide
    have hstart : full .double ≤ 1 * 2 ^ Precision.double.unitExponent := by
      rw [Nat.one_mul]
      exact Nat.pow_le_pow_right Nat.two_pos hbits
    refine (nearest_units .double (full .double)).mono hnearest ?_
    rw [Nat.cast_one, div_one, Nat.cast_le, units_full]
    exact hstart.trans (Nat.mul_le_mul_right _ hn)
  refine ⟨_, hbelow.trans_lt hlimit, ofNat_eq .double n, ?_⟩
  have hbound := units_le_of_nearest hnearest hfull
  rw [Nat.cast_one, div_one] at hbound
  push_cast at hbound
  exact hbound

/-- Twice the number that the last rank but two ends at. -/
def safeTwice : Nat := upperTwice .double (Precision.double.finiteCount - 3)

/-- No power of ten past the last one below the largest value is safe. -/
theorem exponent_le {d : Decimal} (hd : 0 < d.digits) (h : 2 * inUnits .double d ≤ safeTwice) :
    d.exponent ≤ 308 := by
  by_contra hlarge
  have htoo : safeTwice < 2 * (tenTo 309 * 2 ^ Precision.double.unitExponent) := by decide +kernel
  have hmore : tenTo 309 ≤ tenTo d.exponent.toNat := tenTo_mono (by omega)
  have hone : tenTo d.exponent.toNat ≤ d.digits * tenTo d.exponent.toNat :=
    Nat.le_mul_of_pos_left _ hd
  have hover : safeTwice <
      2 * (d.digits * tenTo d.exponent.toNat * 2 ^ Precision.double.unitExponent) :=
    htoo.trans_le (Nat.mul_le_mul_left 2 (Nat.mul_le_mul_right _ (hmore.trans hone)))
  have hover' : (safeTwice : ℚ) < 2 * inUnits .double d := by
    rw [inUnits, ten_zpow_toNat (by omega)]
    rw [tenTo_eq] at hover
    exact_mod_cast hover
  exact absurd h (not_le.mpr hover')

theorem lowerTwice_mono {r r' : Nat} (h : r ≤ r') : lowerTwice p r ≤ lowerTwice p r' :=
  Nat.add_le_add ((units_strictMono p).monotone (Nat.sub_le_sub_right h 1))
    ((units_strictMono p).monotone h)

/-- What two factors of the size `t / (t - 1)` add to a product. -/
theorem twice_product_le {a b n power unit t lower safe : ℚ} (ht : 1 ≤ t) (hu : 0 < unit)
    (ha0 : 0 ≤ a) (hb0 : 0 ≤ b) (ha : a * (t - 1) ≤ t * (n * unit))
    (hb : b * (t - 1) ≤ t * (power * unit)) (h : 2 * (n * power * unit) ≤ safe)
    (hlower : lower ≤ 2 * (a * b / unit)) : lower * (t - 1) ^ 2 ≤ t ^ 2 * safe := by
  have ht' : 0 ≤ t - 1 := by linarith
  have hscaled : lower * unit ≤ 2 * (a * b) := by
    rw [← le_div_iff₀ hu, mul_div_assoc]
    exact hlower
  refine le_of_mul_le_mul_right ?_ hu
  calc lower * (t - 1) ^ 2 * unit = lower * unit * (t - 1) ^ 2 := by ring
    _ ≤ 2 * (a * b) * (t - 1) ^ 2 := mul_le_mul_of_nonneg_right hscaled (sq_nonneg _)
    _ = 2 * (a * (t - 1) * (b * (t - 1))) := by ring
    _ ≤ 2 * (t * (n * unit) * (t * (power * unit))) := by
      have hmul := mul_le_mul ha hb (mul_nonneg hb0 ht') ((mul_nonneg ha0 ht').trans ha)
      linarith
    _ = t ^ 2 * unit * (2 * (n * power * unit)) := by ring
    _ ≤ t ^ 2 * unit * safe := mul_le_mul_of_nonneg_left h (by positivity)
    _ = t ^ 2 * safe * unit := by ring

/-- A product of magnitudes that are hardly larger than a number and a power of ten is no infinity
when their exact product is safe. -/
theorem rankNear_mul_lt {a b n power : Nat}
    (ha : (units .double a : ℚ) * (2 * full .double - 1) ≤
      2 * full .double * (n * 2 ^ Precision.double.unitExponent))
    (hb : (units .double b : ℚ) * (2 * full .double - 1) ≤
      2 * full .double * (power * 2 ^ Precision.double.unitExponent))
    (h : 2 * ((n : ℚ) * power * 2 ^ Precision.double.unitExponent) ≤ safeTwice) :
    rankNear .double (units .double a * units .double b) (2 ^ Precision.double.unitExponent) <
      Precision.double.finiteCount := by
  by_contra hover
  have hnearest := nearest_rankNear .double (units .double a * units .double b)
    (show 0 < 2 ^ Precision.double.unitExponent by positivity)
  have hgap : (2 * full .double) ^ 2 * safeTwice <
      lowerTwice .double Precision.double.finiteCount * (2 * full .double - 1) ^ 2 := by
    decide +kernel
  have hgap' : (2 * full .double : ℚ) ^ 2 * safeTwice <
      lowerTwice .double Precision.double.finiteCount * (2 * full .double - 1) ^ 2 := by
    have hone : 1 ≤ 2 * full .double := by
      have := full_pos .double
      omega
    have hcast := (Nat.cast_lt (α := ℚ)).mpr hgap
    push_cast [Nat.cast_sub hone] at hcast
    exact hcast
  have hlower := (Nat.cast_le (α := ℚ)).mpr (lowerTwice_mono (p := .double) (not_lt.mp hover))
  replace hlower := hlower.trans hnearest.lower
  push_cast at hlower
  have hfull : (1 : ℚ) ≤ full .double := by exact_mod_cast full_pos .double
  have hle := twice_product_le (by linarith) (unit_pos .double) (Nat.cast_nonneg _)
    (Nat.cast_nonneg _) ha hb h hlower
  exact absurd hle (not_le.mpr hgap')

/-- Three roundings cannot get past the last rank from below the last two. -/
theorem scale_ne_none {d : Decimal} (hd : 0 < d.digits) (hle : d.digits ≤ tenTo 308)
    (h : 2 * inUnits .double d ≤ safeTwice) (steps : Nat) :
    (scale (steps + 1) (Value.ofNat d.digits) d.exponent).isSome = true := by
  have hlimit : rankNear .double (tenTo 308 * 2 ^ Precision.double.unitExponent) 1 <
      Precision.double.finiteCount := by decide +kernel
  have he := exponent_le hd h
  by_cases hsign : d.exponent < 0
  · exact isSome_scale_down _ _ hsign
  · obtain ⟨a, ha, hfirst, habound⟩ := exists_ofNat hd hle hlimit
    obtain ⟨b, hb, hsecond, hbbound⟩ := exists_ofNat (n := tenTo d.exponent.natAbs)
      (show 0 < 10 ^ d.exponent.natAbs by positivity)
      (tenTo_mono (show d.exponent.natAbs ≤ 308 by omega)) hlimit
    have hpower : powerOfTen d.exponent.natAbs = Value.ofRank false b := hsecond
    rw [inUnits, ten_zpow_natAbs (not_lt.mp hsign)] at h
    have hfinite := rankNear_mul_lt habound hbbound h
    rw [scale_up (by omega) he, hfirst, hpower, mul_ofRank ha hb,
      if_pos ((isFinite_ofRank false _).mpr hfinite), Option.isSome_some]

end NeuronKernels.QuickReading
