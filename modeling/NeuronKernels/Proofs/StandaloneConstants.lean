import NeuronKernels.Proofs.WrittenArrays

/-!
# What a compiler reads from the written arrays

Between the braces of an array a compiler finds the constants of its values and the closing zero
(`elements_arrayText`). A whole number must not have more bits than the widest type, and that is
where large values fail; it is converted with one rounding. Digits with a point are rounded to
double precision first, and a second rounding to single precision can then go wrong only at the end
of an interval (`nearest_iff_not_onEdge`). Otherwise every value is read back
(`constants_denote_values`).
-/

namespace NeuronKernels.StandaloneConstants
open BinaryFloat DecimalText PlainConstants QuickReading RoundingIntervals ShortestDecimal
open ShortestDigits StandaloneSource TextPieces WrittenArrays

variable {p via : Precision} {bits : Nat}

/-- The element of an array of type `p` that a constant, negated or not, initializes. A whole number
has a type if it has at most `bits` bits, and there is no negative zero among whole numbers. Digits
with a point are rounded to `via` before they are converted. -/
def compile (bits : Nat) (via p : Precision) (negative : Bool) : Constant → Option (Value p)
  | .whole n =>
    if n < 2 ^ bits then
      some (.ofUnits (negative && n != 0) (n * twoTo p.unitExponent) 1)
    else none
  | .point digits places =>
    some ((Value.ofUnits negative (digits * twoTo via.unitExponent) (tenTo places) :
      Value via).convert p)

/-- The number that a value is: a zero has no sign. -/
def plusZero : Value p → Value p
  | .finite negative rank => .finite (negative && rank.val != 0) rank
  | v => v

/-- What `via` makes of digits with a point, in units of `p`. -/
def viaUnits (via p : Precision) (digits places : Nat) : ℚ :=
  units via (rankNear via (digits * twoTo via.unitExponent) (tenTo places)) *
    2 ^ p.unitExponent / 2 ^ via.unitExponent

/-- On an end of the interval of an odd rank, which belongs to the neighbour there. -/
def OnEdge (p : Precision) (rank : Nat) (x : ℚ) : Prop :=
  rank % 2 = 1 ∧ (2 * x = lowerTwice p rank ∨ 2 * x = upperTwice p rank)

/-- The rounding to another precision does not end on the edge of the magnitude. -/
def Settles (via p : Precision) (rank : Nat) : Prop :=
  via ≠ p → ∀ digits places, plainConstant p rank = .point digits places →
    ¬OnEdge p rank (viaUnits via p digits places)

theorem nearest_iff_not_onEdge {rank : Nat} {x : ℚ} (hlow : (lowerTwice p rank : ℚ) ≤ 2 * x)
    (hhigh : 2 * x ≤ upperTwice p rank) : Nearest p rank x ↔ ¬OnEdge p rank x := by
  constructor
  · rintro h ⟨hodd, hend | hend⟩
    · exact absurd hend (h.inside hodd).1.ne'
    · exact absurd hend (h.inside hodd).2.ne
  · intro h
    refine ⟨hlow, hhigh, fun hodd => ⟨?_, ?_⟩⟩
    · exact hlow.lt_of_ne fun hend => h ⟨hodd, .inl hend.symm⟩
    · exact hhigh.lt_of_ne fun hend => h ⟨hodd, .inr hend⟩

/-- The ends of the intervals of single precision are magnitudes of double precision. -/
theorem exists_double_end {rank : Nat} (hr : 0 < rank) (k : Nat) :
    ∃ r, units .double r = lowerTwice .single rank * 2 ^ k := by
  obtain ⟨s, q, hrank, hq, hs⟩ := exists_block .single (rank - 1)
  have hsucc : rank = s * full .single + q + 1 := by omega
  have hends : lowerTwice .single rank = (2 * q + 1) * 2 ^ s := by
    rw [lowerTwice, hrank, hsucc, units_succ hq hs, units_block hq.le hs]
    ring
  have hlong : 2 * q + 1 ≤ 2 * full .double := by
    have hfull : 2 * (2 * full .single) ≤ 2 * full .double := by decide
    omega
  obtain ⟨r, hr⟩ := exists_units hlong (s + k)
  exact ⟨r, by rw [hr, hends, Nat.pow_add, Nat.mul_assoc]⟩

/-- Rounding to double precision does not leave the interval of a magnitude in single precision, and
does not get infinite. -/
theorem viaUnits_between {rank digits places : Nat} (hf : rank < Precision.single.finiteCount)
    (h : plainConstant .single rank = .point digits places) :
    (lowerTwice .single rank : ℚ) ≤ 2 * viaUnits .double .single digits places ∧
      2 * viaUnits .double .single digits places ≤ upperTwice .single rank ∧
      rankNear .double (digits * twoTo Precision.double.unitExponent) (tenTo places) <
        Precision.double.finiteCount := by
  have hten : 0 < tenTo places := Nat.pow_pos (by decide)
  have hx := nearest_plainConstant .single rank
  have hy := nearest_rankNear .double (digits * twoTo Precision.double.unitExponent) hten
  rw [h, Constant.number] at hx
  rw [viaUnits]
  set y := rankNear .double (digits * twoTo Precision.double.unitExponent) (tenTo places)
  -- Between the half units of single precision and the units of double precision lies a power.
  have hsplit : (2 : ℚ) ^ Precision.double.unitExponent =
      2 * 2 ^ Precision.single.unitExponent * 2 ^ 924 := by
    rw [show Precision.double.unitExponent = 1 + Precision.single.unitExponent + 924 from rfl,
      pow_add, pow_add, pow_one]
  have hnumber : ((digits * twoTo Precision.double.unitExponent : Nat) : ℚ) / (tenTo places : Nat) =
      2 * ((digits : ℚ) / 10 ^ places * 2 ^ Precision.single.unitExponent) * 2 ^ 924 := by
    rw [twoTo_eq, tenTo_eq]
    push_cast
    rw [hsplit]
    generalize (2 : ℚ) ^ 924 = c
    ring
  have hscale : 2 * ((units .double y : ℚ) * 2 ^ Precision.single.unitExponent /
      2 ^ Precision.double.unitExponent) = units .double y / 2 ^ 924 := by
    rw [hsplit]
    have hunit := (unit_pos .single).ne'
    field_simp
  have hpower : (0 : ℚ) < 2 ^ 924 := by positivity
  rw [hnumber] at hy
  rw [hscale, le_div_iff₀ hpower, div_le_iff₀ hpower]
  obtain ⟨low, hlow⟩ := exists_double_end (rank_pos_of_point h) 924
  obtain ⟨high, hhigh⟩ := exists_double_end (Nat.succ_pos rank) 924
  have hnext : lowerTwice .single (rank + 1) = upperTwice .single rank := rfl
  rw [Nat.succ_eq_add_one, hnext] at hhigh
  have hlowY : low ≤ y := by
    refine (nearest_units .double low).mono hy ?_
    rw [hlow, Nat.cast_mul, Nat.cast_pow, Nat.cast_ofNat]
    exact mul_le_mul_of_nonneg_right hx.lower hpower.le
  have hYhigh : y ≤ high := by
    refine hy.mono (nearest_units .double high) ?_
    rw [hhigh, Nat.cast_mul, Nat.cast_pow, Nat.cast_ofNat]
    exact mul_le_mul_of_nonneg_right hx.upper hpower.le
  have hlowUnits := (units_strictMono .double).monotone hlowY
  have hhighUnits := (units_strictMono .double).monotone hYhigh
  rw [hlow] at hlowUnits
  rw [hhigh] at hhighUnits
  refine ⟨by exact_mod_cast hlowUnits, by exact_mod_cast hhighUnits, ?_⟩
  have hlarge : 2 * units .single Precision.single.finiteCount * 2 ^ 924 <
      units .double Precision.double.finiteCount := by decide +kernel
  rw [← (units_strictMono .double).lt_iff_lt]
  exact hhighUnits.trans_lt
    ((Nat.mul_le_mul_right _ (CompactNumbers.upperTwice_le hf)).trans_lt hlarge)

theorem convert_eq_finite_iff {negative : Bool} {r : Nat} (hr : r < via.finiteCount)
    {rank : Fin p.finiteCount} :
    (Value.ofRank negative r : Value via).convert p = .finite negative rank ↔
      Nearest p rank ((units via r : ℚ) * 2 ^ p.unitExponent / 2 ^ via.unitExponent) := by
  have hunit : 0 < twoTo via.unitExponent := Nat.two_pow_pos _
  rw [ofRank_of_lt hr, Value.convert, ofUnits_eq_finite_iff hunit, twoTo_eq, twoTo_eq]
  push_cast
  rfl

/-- Digits with a point compile to their value unless they are rounded to an end of its interval
first. -/
theorem compile_point_iff (hvia : via = p ∨ via = .double) {negative : Bool}
    {rank : Fin p.finiteCount} {digits places : Nat}
    (h : plainConstant p rank = .point digits places) :
    compile bits via p negative (.point digits places) = some (.finite negative rank) ↔
      Settles via p rank := by
  have hten : 0 < tenTo places := Nat.pow_pos (by decide)
  have hsettles : Settles via p rank ↔
      (via ≠ p → ¬OnEdge p rank (viaUnits via p digits places)) := by
    refine forall_congr' fun _ => ⟨fun hs => hs digits places h, fun hs digits' places' h' => ?_⟩
    obtain ⟨rfl, rfl⟩ := Constant.point.inj (h.symm.trans h')
    exact hs
  rw [hsettles, compile, Option.some.injEq, Value.ofUnits]
  by_cases hsame : via = p
  · subst hsame
    have hrank : rankNear via (digits * twoTo via.unitExponent) (tenTo places) = rank := by
      rw [rankNear_eq_iff hten, twoTo_eq, tenTo_eq]
      have hnear := nearest_plainConstant via rank
      rw [h, Constant.number] at hnear
      push_cast
      rwa [mul_div_right_comm]
    have hexact : (units via rank : ℚ) * 2 ^ via.unitExponent / 2 ^ via.unitExponent =
        units via rank := mul_div_cancel_right₀ _ (unit_pos via).ne'
    rw [hrank, convert_eq_finite_iff rank.isLt, hexact]
    exact ⟨fun _ hne => absurd rfl hne, fun _ => nearest_units via rank⟩
  · obtain rfl : via = .double := hvia.resolve_left hsame
    obtain rfl : p = .single := by
      cases p with
      | single => rfl
      | double => exact absurd rfl hsame
    obtain ⟨hlow, hhigh, hfinite⟩ := viaUnits_between rank.isLt h
    rw [convert_eq_finite_iff hfinite]
    exact (nearest_iff_not_onEdge hlow hhigh).trans ⟨fun hs _ => hs, fun hs => hs hsame⟩

theorem plusZero_of_pos {negative : Bool} {rank : Fin p.finiteCount} (hr : 0 < rank.val) :
    plusZero (.finite negative rank : Value p) = .finite negative rank := by
  simp [plusZero, Nat.ne_of_gt hr]

theorem compile_whole_iff {negative : Bool} {rank : Fin p.finiteCount} {n : Nat}
    (h : plainConstant p rank = .whole n) :
    compile bits via p negative (.whole n) = some (plusZero (.finite negative rank)) ↔
      Fits bits p rank := by
  have hfits : Fits bits p rank ↔ n < 2 ^ bits := by
    refine ⟨fun hf => hf n h, fun hn n' h' => ?_⟩
    obtain rfl := Constant.whole.inj (h.symm.trans h')
    exact hn
  have hsign : (n != 0) = (rank.val != 0) := by
    obtain hzero | hr := Nat.eq_zero_or_pos rank.val
    · rw [plainConstant, if_pos hzero] at h
      rw [hzero, ← Constant.whole.inj h]
    · rw [bne_iff_ne.mpr (whole_pos hr h).ne', bne_iff_ne.mpr hr.ne']
  have hvalue : (Value.ofUnits (negative && n != 0) (n * twoTo p.unitExponent) 1 : Value p) =
      plusZero (.finite negative rank) := by
    have hnear := nearest_plainConstant p rank
    rw [h, Constant.number] at hnear
    rw [plusZero, hsign, ofUnits_eq_finite_iff Nat.one_pos, twoTo_eq]
    push_cast
    rwa [div_one]
  rw [hfits, compile, hvalue]
  by_cases hn : n < 2 ^ bits <;> simp [hn]

theorem compile_plainConstant_iff (hvia : via = p ∨ via = .double) (negative : Bool)
    (rank : Fin p.finiteCount) :
    compile bits via p negative (plainConstant p rank) =
        some (plusZero (.finite negative rank)) ↔
      Fits bits p rank ∧ Settles via p rank := by
  cases h : plainConstant p rank with
  | whole n =>
    have hsettles : Settles via p rank := by
      intro _ digits places hpoint
      rw [h] at hpoint
      cases hpoint
    rw [compile_whole_iff h, and_iff_left hsettles]
  | point digits places =>
    have hfits : Fits bits p rank := by
      intro n hwhole
      rw [h] at hwhole
      cases hwhole
    rw [plusZero_of_pos (rank_pos_of_point h), compile_point_iff hvia h, and_iff_right hfits]

/-- The element that a constant initializes, with a sign in front or without. -/
def readConstant (bits : Nat) (via p : Precision) : List Char → Option (Value p)
  | '-' :: cs => (Constant.ofChars cs).bind (compile bits via p true)
  | cs => (Constant.ofChars cs).bind (compile bits via p false)

/-- The element that a text initializes. The names of the mathematics header are known only if it is
included. -/
def readElement (bits : Nat) (via p : Precision) (math : Bool) (cs : List Char) :
    Option (Value p) :=
  if math = true ∧ cs = "NAN".toList then some .nan
  else if math = true ∧ cs = "INFINITY".toList then some (.infinity false)
  else if math = true ∧ cs = "-INFINITY".toList then some (.infinity true)
  else readConstant bits via p cs

/-- Whether a value has a constant that is compiled to it. -/
def Faithful (bits : Nat) (via : Precision) : Value p → Prop
  | .finite _ rank => Fits bits p rank ∧ Settles via p rank
  | _ => True

/-- Without a rounding in between all magnitudes below two to the `bits` are faithful. -/
theorem faithful_of_lt {negative : Bool} {rank : Nat} (hr : rank < p.finiteCount)
    (h : units p rank < 2 ^ bits * 2 ^ p.unitExponent) :
    Faithful bits p (Value.ofRank negative rank : Value p) := by
  rw [ofRank_of_lt hr]
  exact ⟨fits_of_lt h, fun hne => absurd rfl hne⟩

theorem readConstant_signed (negative : Bool) (rank : Nat) :
    readConstant bits via p (signed negative (plainMagnitude p rank)) =
      compile bits via p negative (plainConstant p rank) := by
  have hread := ofChars_plainMagnitude p rank
  have hbind : (Constant.ofChars (plainMagnitude p rank)).bind (compile bits via p negative) =
      compile bits via p negative (plainConstant p rank) := by
    rw [hread, Option.bind_some]
  cases negative with
  | true => exact hbind
  | false =>
    rw [← hbind, signed, if_neg Bool.false_ne_true]
    cases hcs : plainMagnitude p rank with
    | nil => rfl
    | cons c cs =>
      have hc : c ≠ '-' := by
        rintro rfl
        have hmem : '-' ∈ plainMagnitude p rank := by simp [hcs]
        obtain hdigit | hpoint := mem_of_ofChars hread hmem
        · cases hdigit
        · exact absurd hpoint (by decide)
      rw [readConstant]
      rintro _ ⟨⟩
      exact hc rfl

/-- No constant is spelled like a name. -/
theorem readElement_finite (math : Bool) (negative : Bool) (rank : Fin p.finiteCount) :
    readElement bits via p math (valueText (.finite negative rank : Value p)).toList =
      compile bits via p negative (plainConstant p rank) := by
  have hread := ofChars_plainMagnitude p rank
  have hletters (word : List Char) (hword : ∃ c ∈ word, isAsciiLetter c = true) :
      signed negative (plainMagnitude p rank) ≠ word := by
    obtain ⟨c, hc, hletter⟩ := hword
    rintro rfl
    have hplain : c = '-' ∨ c ∈ plainMagnitude p rank := by
      cases negative with
      | true => exact List.mem_cons.mp hc
      | false => exact .inr hc
    obtain rfl | hc := hplain
    · cases hletter
    · obtain hdigit | rfl := mem_of_ofChars hread hc
      · simp only [isDigit, isAsciiLetter, Bool.or_eq_true, Bool.and_eq_true,
          decide_eq_true_eq] at hdigit hletter
        omega
      · cases hletter
  have hnan := hletters "NAN".toList ⟨'N', by decide, by decide⟩
  have hinfinity := hletters "INFINITY".toList ⟨'N', by decide, by decide⟩
  have hminus := hletters "-INFINITY".toList ⟨'N', by decide, by decide⟩
  rw [toList_valueText, readElement, if_neg fun h => hnan h.2, if_neg fun h => hinfinity h.2,
    if_neg fun h => hminus h.2, readConstant_signed]

theorem readElement_iff (hvia : via = p ∨ via = .double) {math : Bool} {v : Value p}
    (hmath : v.isFinite = false → math = true) :
    readElement bits via p math (valueText v).toList = some (plusZero v) ↔
      Faithful bits via v := by
  cases v with
  | nan =>
    rw [hmath rfl]
    simp [readElement, valueText, plusZero, Faithful]
  | infinity negative =>
    rw [hmath rfl]
    cases negative <;> simp [readElement, valueText, plusZero, Faithful]
  | finite negative rank =>
    rw [readElement_finite]
    exact compile_plainConstant_iff hvia negative rank

/-- What stands between the includes and the arrays. -/
def code (p : Precision) (name : String) (feed : KernelUnit.Kernel)
    (train : Option KernelUnit.Kernel) : String :=
  concat
    [line "#define kernel", line "#define global", line "", kernelText feed,
     optionalText kernelText train, feedWrapper p name feed,
     optionalText (trainWrapper p name) train]

theorem sourceText_eq (name headerName : String) (feed : KernelUnit.Kernel)
    (train : Option KernelUnit.Kernel) (x : Export p) :
    sourceText name headerName feed train x =
      line ("#include \"" ++ headerName ++ "\"") ++
        (if needsMath x then line "#include <math.h>" else "") ++ code p name feed train ++
        arrayText "kMemory" x.memory ++ line "" ++ arrayText "kOutputs" x.outputs := by
  simp [sourceText, code, concat, String.append_assoc]

theorem needsMath_iff (x : Export p) :
    needsMath x = true ↔ ∃ v ∈ x.memory ++ x.outputs, v.isFinite = false := by
  rw [needsMath, List.any_eq_true]
  simp only [Bool.not_eq_true']

/-- The arrays of the source file hold the texts of all values, and the mathematics header is
included exactly if one of them is not finite. A finite value is a constant behind its sign, with a
point or a whole number; an element is initialized to the value, a zero without its sign, exactly if
the whole number has no more than `bits` bits and the rounding of digits with a point to `via` does
not end on an edge. All magnitudes below two to the `bits` fit, and none beyond. -/
theorem constants_denote_values (hbits : 57 ≤ bits) (hvia : via = p ∨ via = .double)
    (name token : String) (constOnly : Bool) (x : Export p) {feed : KernelUnit.Kernel}
    {rest : List KernelUnit.Kernel} (hfeed : x.feed = feed :: rest) :
    (sourceName name,
        line ("#include \"" ++ headerName name ++ "\"") ++
          (if ∃ v ∈ x.memory ++ x.outputs, v.isFinite = false then line "#include <math.h>"
            else "") ++
          code p name feed (exportedTrain constOnly x) ++
          arrayText "kMemory" x.memory ++ line "" ++ arrayText "kOutputs" x.outputs) ∈
        files name token constOnly x ∧
      elements (arrayText "kMemory" x.memory).toList =
        (x.memory.map fun v => (valueText v).toList) ++ [['0']] ∧
      elements (arrayText "kOutputs" x.outputs).toList =
        (x.outputs.map fun v => (valueText v).toList) ++ [['0']] ∧
      (∀ v ∈ x.memory ++ x.outputs,
        (readElement bits via p (needsMath x) (valueText v).toList = some (plusZero v) ↔
          Faithful bits via v)) ∧
      ∀ (negative : Bool) (rank : Fin p.finiteCount),
        (∃ cs, (valueText (.finite negative rank : Value p)).toList = signed negative cs ∧
          Constant.ofChars cs = some (plainConstant p rank) ∧
          ('.' ∈ cs ↔ ∃ digits places, plainConstant p rank = .point digits places)) ∧
        (units p rank < 2 ^ bits * 2 ^ p.unitExponent → Fits bits p rank) ∧
        (2 ^ bits * 2 ^ p.unitExponent < units p rank → ¬Fits bits p rank) := by
  refine ⟨?_, elements_arrayText (by decide) x.memory, elements_arrayText (by decide) x.outputs,
    fun v hv => ?_, fun negative rank => ⟨?_, fits_of_lt, not_fits_of_gt hbits⟩⟩
  · have hsource := sourceText_eq name (headerName name) feed (exportedTrain constOnly x) x
    simp only [needsMath_iff] at hsource
    rw [files, hfeed, ← hsource]
    exact List.mem_cons_self
  · exact readElement_iff hvia fun hv' => (needsMath_iff x).mpr ⟨v, hv, hv'⟩
  · have hread := ofChars_plainMagnitude p rank
    exact ⟨_, toList_valueText negative rank, hread, point_mem_iff hread⟩

/-- A tenth, a negative zero and not-a-number are all read back. -/
theorem small_values_denoted :
    let x : Export .double :=
      { feed := [⟨.feed, "feed_0", "void kernel feed_0() \x7b\n\x7d\n", 0, none⟩], train := []
        memory := [Value.ofRank false 4591870180066957722, Value.ofRank true 0]
        outputs := [.nan] }
    57 ≤ 63 ∧ x.feed ≠ [] ∧ ∀ v ∈ x.memory ++ x.outputs,
      readElement 63 .double .double (needsMath x) (valueText v).toList = some (plusZero v) := by
  intro x
  obtain ⟨-, -, -, hread, -⟩ := constants_denote_values (show 57 ≤ 63 by decide)
    (show Precision.double = .double ∨ Precision.double = .double from .inl rfl)
    "net" "0" true x rfl
  have htenth : Faithful 63 .double (Value.ofRank false 4591870180066957722 : Value .double) :=
    faithful_of_lt (by decide +kernel) (by decide +kernel)
  have hzero : Faithful 63 .double (Value.ofRank true 0 : Value .double) :=
    faithful_of_lt (by decide +kernel) (by decide +kernel)
  refine ⟨by decide, List.cons_ne_nil _ _, fun v hv => (hread v hv).mpr ?_⟩
  simp only [x, List.cons_append, List.nil_append, List.mem_cons, List.not_mem_nil, or_false] at hv
  obtain rfl | rfl | rfl := hv
  · exact htenth
  · exact hzero
  · trivial

/-- A whole number of more than 64 bits: the value is finite, its text has no point, and it is no
constant. -/
theorem large_whole_number_refused :
    let v : Value .double := Value.ofDecimal false 1 20
    v.isFinite = true ∧ valueText v = "100000000000000000000" ∧ '.' ∉ (valueText v).toList ∧
      readElement 64 .double .double false (valueText v).toList = none := by
  decide +kernel

/-- In single precision the shortest digits may be rounded to an edge first. -/
example :
    let v : Value .single := Value.ofDecimal false 7038531 (-32)
    readElement 63 .single .single false (valueText v).toList = some v ∧
      readElement 63 .double .single false (valueText v).toList ≠ some v := by
  decide +kernel

end NeuronKernels.StandaloneConstants
