import NeuronKernels.ArenaSnapshot
import NeuronKernels.Proofs.CompactNumbers
import NeuronKernels.Proofs.JsonRefusals

/-!
# Values that are read again

What comes back for a value in a snapshot is decided by the quick way of reading (`reread`). Every
finite value comes back as some value (`isSome_reread`), and a short one as itself
(`reread_short`); a value that is not finite is written as a word that no number is read from.
-/

namespace NeuronKernels.RereadValues
open ArenaSnapshot BinaryFloat CompactNumbers DecimalText JsonReading JsonRefusals JsonRoundTrip
open QuickReading RoundingIntervals ShortestDecimal ShortestDigits TextPieces

variable {p : Precision}

/-- What the reader makes of a magnitude. -/
def rereadMagnitude (p : Precision) (rank : Nat) : Option (Value .double) :=
  scale 4 (Value.ofNat (collected p rank).digits) (collected p rank).exponent

/-- What the reader makes of the text of a value. -/
def reread : Value p → Option (Value p)
  | .finite negative rank =>
    (rereadMagnitude p rank).map fun v => (if negative then v.negate else v).convert p
  | _ => none

theorem valueText_finite (negative : Bool) (rank : Fin p.finiteCount) :
    valueText (.finite negative rank : Value p) = signed negative (compactMagnitude p rank) := by
  simp [valueText, compactText, compactChars]

/-- The text of a finite value starts with a sign or a digit. -/
theorem signed_head (negative : Bool) (rank : Nat) :
    ∃ c cs, signed negative (compactMagnitude p rank) = c :: cs ∧ (c = '-' ∨ isDigit c = true) := by
  cases negative with
  | true => exact ⟨'-', _, rfl, .inl rfl⟩
  | false =>
    obtain ⟨c, cs, hcs, hc⟩ := startsWithDigit_compact p rank
    exact ⟨c, cs, hcs, .inr hc⟩

theorem readNumber_compact (negative : Bool) (rank : Fin p.finiteCount) {rest : List Char}
    (h : Ends rest) :
    readNumber (signed negative (compactMagnitude p rank) ++ rest) =
      (floatOfParts negative (collected p rank).digits (collected p rank).exponent).map
        (·, rest) := by
  rw [← readUnsignedNumber_compact negative rank.isLt h]
  cases negative with
  | true => rfl
  | false =>
    obtain ⟨c, cs, hcs, hc⟩ := startsWithDigit_compact p rank
    have hsign : c ≠ '-' := by
      rintro rfl
      cases hc
    change readNumber (compactMagnitude p rank ++ rest) = _
    rw [hcs, List.cons_append, readNumber]
    rintro _ ⟨⟩
    exact hsign rfl

theorem refuses_null (p : Precision) :
    Refuses (readFloat p) "null".toList (.invalidType .null (precisionWord p)) where
  starts := ⟨'n', ['u', 'l', 'l'], rfl, by decide⟩
  refuses {cs rest} hcs _ := by
    have htext : "null".toList ++ rest = 'n' :: 'u' :: 'l' :: 'l' :: rest := rfl
    rw [htext] at hcs
    simp only [readFloat, hcs]
    rfl

/-- What is not finite is refused. -/
theorem refuses_value {v : Value p} (h : v.isFinite = false) :
    Refuses (readFloat p) (valueText v) (.invalidType .null (precisionWord p)) := by
  cases v with
  | nan => exact refuses_null p
  | infinity negative => exact refuses_null p
  | finite negative rank => cases h

/-- What is finite is read again. -/
theorem reads_value {v w : Value p} (h : reread v = some w) :
    Reads (readFloat p) (valueText v) w := by
  cases v with
  | nan => cases h
  | infinity negative => cases h
  | finite negative rank =>
    obtain ⟨magnitude, hmagnitude, rfl⟩ := Option.map_eq_some_iff.mp h
    obtain ⟨c, ds, htext, hc⟩ := signed_head (p := p) negative rank
    have hparts : floatOfParts negative (collected p rank).digits (collected p rank).exponent =
        .ok (.float (if negative then magnitude.negate else magnitude)) := by
      rw [rereadMagnitude] at hmagnitude
      rw [floatOfParts, hmagnitude]
    rw [valueText_finite]
    constructor
    · refine ⟨c, ds, htext, ?_⟩
      obtain rfl | hc := hc
      · decide
      · exact not_mem_between hc
    · intro cs rest hcs hr
      have hnumber := readNumber_compact negative rank hr
      have hstart : startsNumber (signed negative (compactMagnitude p rank) ++ rest) = true := by
        rw [htext, List.cons_append, startsNumber]
        simpa using hc
      simp only [readFloat, hcs, hstart, if_true, hnumber, hparts]
      rfl

theorem inUnits_mul (p q : Precision) (d : Decimal) :
    inUnits q d * 2 ^ p.unitExponent = inUnits p d * 2 ^ q.unitExponent := by
  simp only [inUnits]
  ring

/-- All ranks of double precision but the last two lie safely below the end of the range. -/
theorem isSome_rereadMagnitude_double {rank : Nat} (hf : rank < Precision.double.finiteCount) :
    (rereadMagnitude .double rank).isSome = true := by
  obtain rfl | hr := Nat.eq_zero_or_pos rank
  · exact isSome_scale_down 4 _ (by decide)
  by_cases hlast : rank ≤ Precision.double.finiteCount - 3
  · obtain ⟨-, hd, hdigits⟩ := collected_spec (p := .double) hr
    refine scale_ne_none hd (hdigits.trans (tenTo_mono (by decide))) ?_ 3
    have hupper : upperTwice .double rank ≤ safeTwice :=
      Nat.add_le_add ((units_strictMono .double).monotone hlast)
        ((units_strictMono .double).monotone (Nat.succ_le_succ hlast))
    exact (nearest_collected .double rank).upper.trans (by exact_mod_cast hupper)
  · have hcases : rank = Precision.double.finiteCount - 2 ∨
        rank = Precision.double.finiteCount - 1 := by omega
    obtain rfl | rfl := hcases
    · decide +kernel
    · decide +kernel

/-- The whole range of single precision lies safely below the end of that of double precision. -/
theorem isSome_rereadMagnitude_single {rank : Nat} (hf : rank < Precision.single.finiteCount) :
    (rereadMagnitude .single rank).isSome = true := by
  obtain rfl | hr := Nat.eq_zero_or_pos rank
  · exact isSome_scale_down 4 _ (by decide)
  obtain ⟨-, hd, hdigits⟩ := collected_spec (p := .single) hr
  refine scale_ne_none hd (hdigits.trans (tenTo_mono (by decide))) ?_ 3
  have hsafe : 2 * units .single Precision.single.finiteCount * 2 ^ Precision.double.unitExponent ≤
      safeTwice * 2 ^ Precision.single.unitExponent := by decide +kernel
  have hsafe' : 2 * (units .single Precision.single.finiteCount : ℚ) *
      2 ^ Precision.double.unitExponent ≤ safeTwice * 2 ^ Precision.single.unitExponent := by
    exact_mod_cast hsafe
  have hupper : 2 * inUnits .single (collected .single rank) ≤
      2 * (units .single Precision.single.finiteCount : ℚ) :=
    (nearest_collected .single rank).upper.trans (by exact_mod_cast upperTwice_le hf)
  refine le_of_mul_le_mul_right ?_ (unit_pos .single)
  calc 2 * inUnits .double (collected .single rank) * 2 ^ Precision.single.unitExponent
      = 2 * inUnits .single (collected .single rank) * 2 ^ Precision.double.unitExponent := by
        rw [mul_assoc, inUnits_mul, mul_assoc]
    _ ≤ 2 * units .single Precision.single.finiteCount * 2 ^ Precision.double.unitExponent :=
        mul_le_mul_of_nonneg_right hupper (unit_pos .double).le
    _ ≤ safeTwice * 2 ^ Precision.single.unitExponent := hsafe'

theorem isSome_rereadMagnitude {rank : Nat} (hf : rank < p.finiteCount) :
    (rereadMagnitude p rank).isSome = true := by
  cases p with
  | single => exact isSome_rereadMagnitude_single hf
  | double => exact isSome_rereadMagnitude_double hf

theorem isSome_reread {v : Value p} (h : v.isFinite = true) : (reread v).isSome = true := by
  cases v with
  | nan => cases h
  | infinity negative => cases h
  | finite negative rank =>
    rw [reread, Option.isSome_map]
    exact isSome_rereadMagnitude rank.isLt

/-- What comes back for a value. -/
def restoredValue (v : Value p) : Value p := (reread v).getD v

theorem reread_restored {v : Value p} (h : v.isFinite = true) :
    reread v = some (restoredValue v) := by
  obtain ⟨w, hw⟩ := Option.isSome_iff_exists.mp (isSome_reread h)
  rw [restoredValue, hw, Option.getD_some]

/-- The shortest decimal of the value has few digits and a small exponent. A value in single
precision is rounded twice, so its decimal has to be the value itself as well. -/
def Short (v : Value p) : Prop :=
  match v with
  | .finite _ rank => (collected p rank).digits ≤ 2 ^ 53 ∧
      (collected p rank).exponent.natAbs ≤ 22 ∧
      (p = .single → inUnits p (collected p rank) = units p rank)
  | _ => False

/-- Nothing is lost when a number that both precisions have is converted. -/
theorem convert_exact {q : Precision} {r : Nat} (hr : r < q.finiteCount) (negative : Bool)
    (rank : Fin p.finiteCount)
    (h : units q r * 2 ^ p.unitExponent = units p rank * 2 ^ q.unitExponent) :
    (Value.finite negative ⟨r, hr⟩ : Value q).convert p = .finite negative rank := by
  have hunit : 0 < twoTo q.unitExponent := Nat.two_pow_pos _
  have hvalue : ((units q r * twoTo p.unitExponent : Nat) : ℚ) / (twoTo q.unitExponent : Nat) =
      units p rank := by
    rw [twoTo_eq, twoTo_eq, h, div_eq_iff (by positivity)]
    push_cast
    rfl
  rw [Value.convert, ofUnits_eq_finite_iff hunit, hvalue]
  exact nearest_units p rank

/-- Double precision has every number of either precision. -/
theorem exists_double {rank : Nat} (hf : rank < p.finiteCount) :
    ∃ r < Precision.double.finiteCount,
      units .double r * 2 ^ p.unitExponent = units p rank * 2 ^ Precision.double.unitExponent := by
  cases p with
  | double => exact ⟨rank, hf, rfl⟩
  | single =>
    obtain ⟨s, q, rfl, hq, hs⟩ := exists_block .single rank
    have hq' : q ≤ 2 * full .double := by
      have hfull : full .single ≤ full .double := by decide
      omega
    obtain ⟨r, hr⟩ := exists_units hq' (s + 925)
    have hsame : units .double r * 2 ^ Precision.single.unitExponent =
        units .single (s * full .single + q) * 2 ^ Precision.double.unitExponent := by
      rw [hr, units_block (by omega) hs, Nat.mul_assoc, Nat.mul_assoc, ← Nat.pow_add, ← Nat.pow_add]
      congr 2
    refine ⟨r, ?_, hsame⟩
    have hlarge : units .single Precision.single.finiteCount * 2 ^ Precision.double.unitExponent <
        units .double Precision.double.finiteCount * 2 ^ Precision.single.unitExponent := by
      decide +kernel
    have hbelow : units .single (s * full .single + q) ≤
        units .single Precision.single.finiteCount := (units_strictMono .single).monotone hf.le
    rw [← (units_strictMono .double).lt_iff_lt]
    refine Nat.lt_of_mul_lt_mul_right (a := 2 ^ Precision.single.unitExponent) ?_
    rw [hsame]
    exact (Nat.mul_le_mul_right _ hbelow).trans_lt hlarge

/-- A short value comes back as itself. -/
theorem reread_short {v : Value p} (h : Short v) : reread v = some v := by
  cases v with
  | nan => exact h.elim
  | infinity negative => exact h.elim
  | finite negative rank =>
    obtain ⟨hdigits, hexponent, hsingle⟩ := h
    obtain ⟨r, hr, hsame⟩ := exists_double rank.isLt
    have hnearest : Nearest .double r (inUnits .double (collected p rank)) := by
      cases p with
      | double =>
        have hrank : r = rank :=
          (units_strictMono .double).injective (Nat.mul_right_cancel (by positivity) hsame)
        rw [hrank]
        exact nearest_collected .double rank
      | single =>
        have hexact : inUnits .double (collected .single rank) = units .double r := by
          refine mul_right_cancel₀ (unit_pos .single).ne' ?_
          rw [inUnits_mul, hsingle rfl]
          exact_mod_cast hsame.symm
        rw [hexact]
        exact nearest_units .double r
    have hscale := scale_exact hdigits hexponent hr hnearest 3
    rw [reread, rereadMagnitude, hscale, Option.map_some, ofRank_of_lt hr]
    cases negative with
    | false => exact congrArg some (convert_exact hr false rank hsame)
    | true => exact congrArg some (convert_exact hr true rank hsame)

theorem restoredValue_short {v : Value p} (h : Short v) : restoredValue v = v := by
  rw [restoredValue, reread_short h, Option.getD_some]

end NeuronKernels.RereadValues
