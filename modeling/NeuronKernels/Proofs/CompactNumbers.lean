import NeuronKernels.DecimalText
import NeuronKernels.Proofs.JsonRoundTrip
import NeuronKernels.Proofs.QuickReading

/-!
# Reading compact numbers

From the compact text of a magnitude a reader collects all digits and their exponent, and nothing is
cut off (`readUnsignedNumber_compact`). The number that it collects is the shortest decimal, but for
the zero that is written behind the point of a whole number.
-/

namespace NeuronKernels.CompactNumbers
open BinaryFloat DecimalText JsonReading JsonRoundTrip QuickReading RoundingIntervals
open ShortestDecimal ShortestDigits TextPieces

variable {p : Precision}

theorem digitsFrom_zeros (count n : Nat) :
    digitsFrom n (List.replicate count '0') = n * 10 ^ count := by
  induction count generalizing n with
  | zero => simp [digitsFrom]
  | succ count ih =>
    have hzero : digitsFrom n ('0' :: List.replicate count '0') =
        digitsFrom (n * 10) (List.replicate count '0') := rfl
    rw [List.replicate_succ, hzero, ih, Nat.pow_succ]
    ring

theorem span_digits {ds rest : List Char} (hd : ∀ c ∈ ds, isDigit c = true)
    (hr : startsWithDigit rest = false) :
    (ds ++ rest).takeWhile isDigit = ds ∧ (ds ++ rest).dropWhile isDigit = rest := by
  rw [List.takeWhile_append_of_pos hd, List.dropWhile_append_of_pos hd]
  cases rest with
  | nil => simp
  | cons c rest =>
    have hc : ¬ isDigit c = true := by simpa [startsWithDigit] using hr
    simp [hc]

/-- A whole part of digits, with a leading zero only when it stands alone. -/
structure WholePart (ds : List Char) : Prop where
  digits : ∀ c ∈ ds, isDigit c = true
  ne_nil : ds ≠ []
  lead : ∀ cs, ds = '0' :: cs → cs = []

theorem wholePart_number (n : Nat) : WholePart (JsonLayout.number n) where
  digits _ := isDigit_of_mem_number
  ne_nil := Nat.toDigits_ne_nil
  lead _ h := (number_head h).2

theorem readUnsignedNumber_whole (negative : Bool) {ds rest : List Char} (h : WholePart ds)
    (hn : digitsFrom 0 ds < wordLimit) (hr : startsWithDigit rest = false) :
    readUnsignedNumber negative (ds ++ rest) =
      readAfterWhole negative (digitsFrom 0 ds) 0 rest := by
  have htake := takeDigits_append h.digits hn hr 0
  obtain ⟨hwhile, hdrop⟩ := span_digits (show ∀ c ∈ [], isDigit c = true from nofun) hr
  cases ds with
  | nil => exact absurd rfl h.ne_nil
  | cons c cs =>
    rw [List.cons_append, readUnsignedNumber]
    by_cases hc : c = '0'
    · subst hc
      obtain rfl := h.lead cs rfl
      rw [if_pos rfl, List.nil_append, hr]
      rfl
    · rw [if_neg hc, if_pos (h.digits c (by simp)), ← List.cons_append, htake]
      simp only [List.nil_append] at hwhile hdrop
      simp only [hwhile, hdrop, List.length_nil]

/-- A fraction of digits. -/
theorem readFraction_digits (negative : Bool) (m : Nat) (e : ℤ) {ds rest : List Char}
    (hd : ∀ c ∈ ds, isDigit c = true) (hne : ds ≠ []) (hn : digitsFrom m ds < wordLimit)
    (hr : startsWithDigit rest = false) :
    readFraction negative m e (ds ++ rest) =
      readTail negative (digitsFrom m ds) (e - ds.length) rest := by
  have htake := takeDigits_append hd hn hr 0
  obtain ⟨-, hdrop⟩ := span_digits (show ∀ c ∈ [], isDigit c = true from nofun) hr
  rw [List.nil_append] at hdrop
  have hlength : ¬ ds.length = 0 := fun h => hne (List.length_eq_zero_iff.mp h)
  simp only [readFraction, htake, Nat.zero_add, hlength, false_and, if_false, hdrop]

theorem readTail_ends (negative : Bool) (m : Nat) (e : ℤ) {rest : List Char} (h : Ends rest) :
    readTail negative m e rest = (floatOfParts negative m e).map (·, rest) := by
  cases rest with
  | nil => rfl
  | cons c rest =>
    obtain rfl | rfl := h
    · rfl
    · rfl

def exponentText (place : ℤ) : List Char :=
  (if place < 0 then '-' else '+') :: JsonLayout.number place.natAbs

theorem readExponentPart_text (negative : Bool) (m : Nat) (e : ℤ) {place : ℤ} {rest : List Char}
    (hp : place.natAbs < exponentLimit) (h : Ends rest) :
    readExponentPart negative m e (exponentText place ++ rest) =
      (floatOfParts negative m (e + place)).map (·, rest) := by
  have hdigits : ∀ c ∈ JsonLayout.number place.natAbs, isDigit c = true :=
    fun c => isDigit_of_mem_number
  obtain ⟨hwhile, hdrop⟩ := span_digits hdigits (not_startsWithDigit h)
  have hempty : (JsonLayout.number place.natAbs).isEmpty = false := by
    rw [List.isEmpty_eq_false_iff]
    exact Nat.toDigits_ne_nil
  have hlimit : ¬ exponentLimit ≤ place.natAbs := by omega
  by_cases hneg : place < 0
  · have hsum : e - (place.natAbs : ℤ) = e + place := by omega
    simp only [exponentText, hneg, if_true, List.cons_append, readExponentPart, hwhile, hdrop,
      hempty, Bool.false_eq_true, if_false, digitsFrom_number, hlimit, hsum]
  · have hsum : e + (place.natAbs : ℤ) = e + place := by omega
    simp only [exponentText, hneg, if_false, List.cons_append, readExponentPart, hwhile, hdrop,
      hempty, Bool.false_eq_true, digitsFrom_number, hlimit, hsum]

theorem readTail_exponent (negative : Bool) (m : Nat) (e : ℤ) {place : ℤ} {rest : List Char}
    (hp : place.natAbs < exponentLimit) (h : Ends rest) :
    readTail negative m e ('e' :: (exponentText place ++ rest)) =
      (floatOfParts negative m (e + place)).map (·, rest) :=
  readExponentPart_text negative m e hp h

/-- The exponent of the leading digit of a decimal. -/
def leadingExponent (d : Decimal) : ℤ := d.exponent + ((digitChars d.digits).length : ℤ) - 1

theorem digitsFrom_digitChars (n : Nat) : digitsFrom 0 (digitChars n) = n := digitsFrom_number n

theorem isDigit_of_mem_digitChars {n : Nat} {c : Char} (h : c ∈ digitChars n) : isDigit c = true :=
  isDigit_of_mem_number (n := n) h

/-- The beginning of the digits of a number that is not zero, in front of any digits. -/
theorem WholePart.of_digits {n : Nat} (hn : 0 < n) {start ds : List Char}
    (hs : start <+: digitChars n) (hne : start ≠ []) (hd : ∀ c ∈ ds, isDigit c = true) :
    WholePart (start ++ ds) where
  digits c hc := by
    obtain hc | hc := List.mem_append.mp hc
    · exact isDigit_of_mem_digitChars (hs.subset hc)
    · exact hd c hc
  ne_nil h := hne (List.append_eq_nil_iff.mp h).1
  lead cs h := by
    obtain ⟨rest, hrest⟩ := hs
    cases start with
    | nil => exact absurd rfl hne
    | cons c start =>
      obtain ⟨rfl, -⟩ := List.cons.inj h
      have hzero := (number_head (n := n) hrest.symm).1
      omega

/-- A number with a point. -/
theorem read_point (negative : Bool) {whole fraction rest : List Char} (hw : WholePart whole)
    (hf : ∀ c ∈ fraction, isDigit c = true) (hne : fraction ≠ [])
    (hn : digitsFrom 0 (whole ++ fraction) < wordLimit) (hr : startsWithDigit rest = false) :
    readUnsignedNumber negative (whole ++ '.' :: (fraction ++ rest)) =
      readTail negative (digitsFrom 0 (whole ++ fraction)) (-fraction.length) rest := by
  rw [digitsFrom_append] at hn ⊢
  rw [readUnsignedNumber_whole negative hw (Nat.lt_of_le_of_lt (le_digitsFrom fraction _) hn) rfl]
  have hfraction := readFraction_digits negative (digitsFrom 0 whole) 0 hf hne hn hr
  rw [zero_sub] at hfraction
  exact hfraction

/-- A decimal with places is written with a point inside or in front of its digits. -/
theorem plainDigits_point {d : Decimal} (hd : 0 < d.digits) (he : d.exponent < 0) :
    ∃ whole fraction, plainDigits d = whole ++ '.' :: fraction ∧ WholePart whole ∧
      (∀ c ∈ fraction, isDigit c = true) ∧ (fraction.length : ℤ) = -d.exponent ∧
      digitsFrom 0 (whole ++ fraction) = d.digits := by
  set ds := digitChars d.digits with hds
  set places := (-d.exponent).toNat with hplaces
  have hexponent : (places : ℤ) = -d.exponent := by omega
  have hvalue : digitsFrom 0 ds = d.digits := digitsFrom_digitChars d.digits
  have hdigits : ∀ c ∈ ds, isDigit c = true := fun c => isDigit_of_mem_digitChars
  by_cases hinside : places < ds.length
  · have htext : plainDigits d =
        ds.take (ds.length - places) ++ '.' :: ds.drop (ds.length - places) := by
      simp only [plainDigits, not_le.mpr he, if_false, ← hds, ← hplaces, hinside, if_true]
    have htake : ds.take (ds.length - places) ≠ [] := by
      refine List.ne_nil_of_length_pos ?_
      rw [List.length_take]
      omega
    have hwhole : WholePart (ds.take (ds.length - places)) := by
      have hprefix := WholePart.of_digits hd (List.take_prefix (ds.length - places) ds) htake
        (show ∀ c ∈ [], isDigit c = true from nofun)
      rwa [List.append_nil] at hprefix
    refine ⟨_, _, htext, hwhole, fun c hc => hdigits c (List.mem_of_mem_drop hc), ?_, ?_⟩
    · rw [← hexponent, List.length_drop]
      omega
    · rw [List.take_append_drop, hvalue]
  · have htext : plainDigits d =
        ['0'] ++ '.' :: (List.replicate (places - ds.length) '0' ++ ds) := by
      simp only [plainDigits, not_le.mpr he, if_false, ← hds, ← hplaces, hinside]
      rfl
    refine ⟨_, _, htext, wholePart_number 0, fun c hc => ?_, ?_, ?_⟩
    · obtain hc | hc := List.mem_append.mp hc
      · rw [List.eq_of_mem_replicate hc]
        rfl
      · exact hdigits c hc
    · rw [← hexponent, List.length_append, List.length_replicate]
      omega
    · rw [digitsFrom_append, digitsFrom_append, show digitsFrom 0 ['0'] = 0 from rfl,
        digitsFrom_zeros, Nat.zero_mul, hvalue]

/-- A decimal without places is written with the zeros of its exponent. -/
theorem plainDigits_whole {d : Decimal} (hd : 0 < d.digits) (he : 0 ≤ d.exponent) :
    WholePart (plainDigits d) ∧
      digitsFrom 0 (plainDigits d) = d.digits * 10 ^ d.exponent.toNat := by
  have htext : plainDigits d = digitChars d.digits ++ List.replicate d.exponent.toNat '0' := by
    simp only [plainDigits, he, if_true]
  rw [htext]
  refine ⟨WholePart.of_digits hd (List.prefix_refl _) Nat.toDigits_ne_nil fun c hc => ?_, ?_⟩
  · rw [List.eq_of_mem_replicate hc]
    rfl
  · rw [digitsFrom_append, digitsFrom_digitChars, digitsFrom_zeros]

theorem read_plainDigits_point (negative : Bool) {d : Decimal} (hd : 0 < d.digits)
    (hn : d.digits < wordLimit) (he : d.exponent < 0) {rest : List Char} (h : Ends rest) :
    readUnsignedNumber negative (plainDigits d ++ rest) =
      (floatOfParts negative d.digits d.exponent).map (·, rest) := by
  obtain ⟨whole, fraction, htext, hwhole, hfraction, hlength, hvalue⟩ := plainDigits_point hd he
  have hne : fraction ≠ [] := by
    rintro rfl
    simp only [List.length_nil, Nat.cast_zero] at hlength
    omega
  have hexponent : -(fraction.length : ℤ) = d.exponent := by omega
  rw [htext, List.append_assoc, List.cons_append,
    read_point negative hwhole hfraction hne (hvalue ▸ hn) (not_startsWithDigit h), hvalue,
    hexponent, readTail_ends negative _ _ h]

theorem isDigit_of_mem_zero {c : Char} (h : c ∈ ['0']) : isDigit c = true := by
  rw [List.mem_singleton.mp h]
  rfl

/-- With the zeros of its exponent and a zero behind the point. -/
theorem read_plainDigits_whole (negative : Bool) {d : Decimal} (hd : 0 < d.digits)
    (hn : d.digits * 10 ^ (d.exponent.toNat + 1) < wordLimit) (he : 0 ≤ d.exponent)
    {rest : List Char} (h : Ends rest) :
    readUnsignedNumber negative (plainDigits d ++ ['.', '0'] ++ rest) =
      (floatOfParts negative (d.digits * 10 ^ (d.exponent.toNat + 1)) (-1)).map (·, rest) := by
  obtain ⟨hwhole, hdigits⟩ := plainDigits_whole hd he
  have hvalue : digitsFrom 0 (plainDigits d ++ ['0']) =
      d.digits * 10 ^ (d.exponent.toNat + 1) := by
    have hzero : ∀ n, digitsFrom n ['0'] = n * 10 := fun _ => rfl
    rw [digitsFrom_append, hdigits, hzero, Nat.pow_succ, Nat.mul_assoc]
  have htext : plainDigits d ++ ['.', '0'] ++ rest = plainDigits d ++ '.' :: (['0'] ++ rest) := by
    simp
  rw [htext, read_point negative hwhole (fun _ => isDigit_of_mem_zero) (List.cons_ne_nil _ _)
    (hvalue ▸ hn) (not_startsWithDigit h), hvalue, readTail_ends negative _ _ h]
  rfl

/-- The digits of a decimal with a point behind the first. -/
def mantissa : List Char → List Char
  | [] => []
  | [c] => [c]
  | c :: c' :: cs => c :: '.' :: c' :: cs

theorem exponentDigits_eq (d : Decimal) : exponentDigits d =
    mantissa (digitChars d.digits) ++ 'e' :: exponentText (leadingExponent d) := by
  simp only [exponentDigits, leadingExponent]
  rcases digitChars d.digits with _ | ⟨c, _ | ⟨c', cs⟩⟩ <;> rfl

/-- With an exponent. -/
theorem read_exponentDigits (negative : Bool) {d : Decimal} (hn : d.digits < wordLimit)
    (hp : (leadingExponent d).natAbs < exponentLimit) {rest : List Char} (h : Ends rest) :
    readUnsignedNumber negative (exponentDigits d ++ rest) =
      (floatOfParts negative d.digits d.exponent).map (·, rest) := by
  have hvalue : digitsFrom 0 (digitChars d.digits) = d.digits := digitsFrom_digitChars d.digits
  have hdigits : ∀ c ∈ digitChars d.digits, isDigit c = true :=
    fun c => isDigit_of_mem_digitChars
  have hone : ∀ c, isDigit c = true → WholePart [c] := fun c hc =>
    ⟨by simpa using hc, by simp, fun cs h => (List.cons.inj h).2.symm⟩
  cases hds : digitChars d.digits with
  | nil => exact absurd hds Nat.toDigits_ne_nil
  | cons c cs =>
    rw [hds] at hvalue hdigits
    have hc := hone c (hdigits c (by simp))
    have hplace : leadingExponent d = d.exponent + cs.length := by
      rw [leadingExponent, hds, List.length_cons]
      push_cast
      ring
    rw [exponentDigits_eq, hds, List.append_assoc, List.cons_append]
    cases cs with
    | nil =>
      have hexponent : 0 + leadingExponent d = d.exponent := by
        rw [hplace]
        simp
      rw [mantissa, readUnsignedNumber_whole negative hc (hvalue ▸ hn) rfl, hvalue]
      have hpart := readExponentPart_text negative d.digits 0 hp h
      rw [hexponent] at hpart
      exact hpart
    | cons c' cs =>
      have hexponent : -((c' :: cs).length : ℤ) + leadingExponent d = d.exponent := by
        rw [hplace]
        ring
      have hfraction : ∀ c ∈ c' :: cs, isDigit c = true := fun c hc => hdigits c (by simp [hc])
      have hvalue' : digitsFrom 0 ([c] ++ c' :: cs) = d.digits := hvalue
      have htext : mantissa (c :: c' :: cs) ++
          'e' :: (exponentText (leadingExponent d) ++ rest) =
            [c] ++ '.' :: (c' :: cs ++ 'e' :: (exponentText (leadingExponent d) ++ rest)) := by
        simp [mantissa]
      rw [htext, read_point negative hc hfraction (by simp) (hvalue' ▸ hn) rfl, hvalue',
        readTail_exponent negative _ _ hp h, hexponent]

def compactDecimal (p : Precision) (d : Decimal) : List Char :=
  if (compactRange p).1 ≤ leadingExponent d ∧ leadingExponent d ≤ (compactRange p).2 then
    if 0 ≤ d.exponent then plainDigits d ++ ['.', '0'] else plainDigits d
  else exponentDigits d

/-- The decimal that is collected from that layout. -/
def collectedDecimal (p : Precision) (d : Decimal) : Decimal :=
  if ((compactRange p).1 ≤ leadingExponent d ∧ leadingExponent d ≤ (compactRange p).2) ∧
      0 ≤ d.exponent then ⟨d.digits * 10 ^ (d.exponent.toNat + 1), -1⟩
  else d

/-- The number that a reader collects from the compact text of a magnitude. -/
def collected (p : Precision) (rank : Nat) : Decimal :=
  if rank = 0 then ⟨0, -1⟩ else collectedDecimal p (shortest p .evenDigit rank)

theorem Nearest.one_le {rank : Nat} {x : ℚ} (h : Nearest p rank x) (hr : 0 < rank) : 1 ≤ 2 * x := by
  have hlower : (1 : ℚ) ≤ lowerTwice p rank := by
    have hpos := units_pos (p := p) hr
    exact_mod_cast Nat.succ_le_of_lt (Nat.lt_of_lt_of_le hpos (Nat.le_add_left _ _))
  exact hlower.trans h.lower

theorem digits_pos_of_nearest {rank : Nat} {d : Decimal} (h : Nearest p rank (inUnits p d))
    (hr : 0 < rank) : 0 < d.digits := by
  refine Nat.pos_of_ne_zero fun hzero => ?_
  have hone := Nearest.one_le h hr
  simp only [inUnits, hzero, Nat.cast_zero, zero_mul, mul_zero] at hone
  exact absurd hone (by norm_num)

/-- The exponent of the leading digit tells the size of a decimal. -/
theorem leadingExponent_spec {d : Decimal} (hd : 0 < d.digits) :
    (10 : ℚ) ^ leadingExponent d ≤ d.digits * 10 ^ d.exponent ∧
      (d.digits : ℚ) * 10 ^ d.exponent < 10 ^ (leadingExponent d + 1) := by
  obtain ⟨c, hc⟩ := Nat.exists_eq_succ_of_ne_zero (Nat.ne_of_gt (digitCount_pos d.digits))
  have hplace : leadingExponent d = c + d.exponent := by
    have hlength : (digitChars d.digits).length = c + 1 := hc
    rw [leadingExponent, hlength]
    push_cast
    ring
  have hlow : (10 : ℚ) ^ c ≤ d.digits := by exact_mod_cast ten_pow_le_of_digitCount hd hc
  have hhigh : (d.digits : ℚ) < 10 ^ (c + 1) := by
    have hcount := lt_ten_pow_digitCount d.digits
    rw [hc] at hcount
    exact_mod_cast hcount
  have hnext : (10 : ℚ) ^ (leadingExponent d + 1) = 10 ^ (c + 1) * 10 ^ d.exponent := by
    rw [hplace, ← zpow_natCast, ← zpow_add₀ (by norm_num)]
    congr 1
    push_cast
    ring
  rw [hnext, hplace, zpow_add₀ (by norm_num), zpow_natCast]
  exact ⟨mul_le_mul_of_nonneg_right hlow (ten_zpow_pos _).le,
    mul_lt_mul_of_pos_right hhigh (ten_zpow_pos _)⟩

theorem upperTwice_le {rank : Nat} (h : rank < p.finiteCount) :
    upperTwice p rank ≤ 2 * units p p.finiteCount := by
  rw [upperTwice, Nat.two_mul]
  exact Nat.add_le_add ((units_strictMono p).monotone h.le)
    ((units_strictMono p).monotone (Nat.succ_le_of_lt h))

theorem exists_units_lt (p : Precision) : ∃ k ≤ 1000, units p p.finiteCount < tenTo k :=
  ⟨1000, le_rfl, by cases p <;> decide +kernel⟩

/-- The exponents of finite magnitudes are short. -/
theorem natAbs_leadingExponent_lt {rank : Nat} {d : Decimal} (h : Nearest p rank (inUnits p d))
    (hr : 0 < rank) (hf : rank < p.finiteCount) : (leadingExponent d).natAbs < exponentLimit := by
  obtain ⟨hlow, hhigh⟩ := leadingExponent_spec (digits_pos_of_nearest h hr)
  obtain ⟨k, hk, hunits⟩ := exists_units_lt p
  have hone := Nearest.one_le h hr
  have hupper : 2 * inUnits p d ≤ 2 * units p p.finiteCount :=
    h.upper.trans (by exact_mod_cast upperTwice_le hf)
  have hunits' : (units p p.finiteCount : ℚ) < 10 ^ k := by
    rw [tenTo_eq] at hunits
    exact_mod_cast hunits
  have hunit : (1 : ℚ) ≤ 2 ^ p.unitExponent := one_le_pow₀ (by norm_num)
  rw [inUnits] at hone hupper
  generalize (d.digits : ℚ) * 10 ^ d.exponent = value at *
  have hvalue : 0 < value := (ten_zpow_pos _).trans_le hlow
  have habove : leadingExponent d < k := by
    have hlt : (10 : ℚ) ^ leadingExponent d < 10 ^ (k : ℤ) := by
      rw [zpow_natCast]
      calc (10 : ℚ) ^ leadingExponent d ≤ value := hlow
        _ ≤ value * 2 ^ p.unitExponent := le_mul_of_one_le_right hvalue.le hunit
        _ ≤ units p p.finiteCount := by linarith
        _ < 10 ^ k := hunits'
    exact (zpow_lt_zpow_iff_right₀ (by norm_num)).mp hlt
  have hbelow : -(p.unitExponent + 1 : ℤ) < leadingExponent d + 1 := by
    have hlt : (10 : ℚ) ^ (-(p.unitExponent + 1 : ℤ)) < 10 ^ (leadingExponent d + 1) := by
      have htwo : (2 : ℚ) ^ (p.unitExponent + 1) ≤ 10 ^ (p.unitExponent + 1) :=
        pow_le_pow_left₀ (by norm_num) (by norm_num) _
      have hcast : (10 : ℚ) ^ (p.unitExponent + 1 : ℤ) = 10 ^ (p.unitExponent + 1) := by
        rw [← zpow_natCast]
        push_cast
        rfl
      rw [zpow_neg, hcast, inv_lt_iff_one_lt_mul₀ (by positivity), mul_comm]
      calc (1 : ℚ) ≤ 2 * (value * 2 ^ p.unitExponent) := hone
        _ = 2 ^ (p.unitExponent + 1) * value := by ring
        _ ≤ 10 ^ (p.unitExponent + 1) * value := mul_le_mul_of_nonneg_right htwo hvalue.le
        _ < 10 ^ (p.unitExponent + 1) * 10 ^ (leadingExponent d + 1) :=
          mul_lt_mul_of_pos_left hhigh (by positivity)
    exact (zpow_lt_zpow_iff_right₀ (by norm_num)).mp hlt
  have hexponent : p.unitExponent ≤ 1074 := by cases p <;> decide
  rw [exponentLimit]
  omega

/-- Zeros that are written out for an exponent do not change a decimal. -/
theorem inUnits_written (q : Precision) {d : Decimal} (he : 0 ≤ d.exponent) :
    inUnits q ⟨d.digits * 10 ^ (d.exponent.toNat + 1), -1⟩ = inUnits q d := by
  simp only [inUnits]
  push_cast [ten_zpow_toNat he]
  rw [zpow_neg, zpow_one, pow_succ]
  field_simp

/-- Whole numbers in the range without an exponent are short. -/
theorem written_le {d : Decimal} (hd : 0 < d.digits) (he : 0 ≤ d.exponent)
    (hp : leadingExponent d ≤ 15) : d.digits * 10 ^ (d.exponent.toNat + 1) ≤ 10 ^ 17 := by
  obtain ⟨-, hhigh⟩ := leadingExponent_spec hd
  have hpow : (10 : ℚ) ^ (leadingExponent d + 1) ≤ 10 ^ 16 := by
    rw [← zpow_natCast]
    exact zpow_le_zpow_right₀ (by norm_num) (by push_cast; omega)
  have hlt : (d.digits : ℚ) * 10 ^ d.exponent.toNat < 10 ^ 16 := by
    rw [ten_zpow_toNat he] at hhigh
    exact hhigh.trans_le hpow
  have hlt' : d.digits * 10 ^ d.exponent.toNat < 10 ^ 16 := by exact_mod_cast hlt
  rw [Nat.pow_succ, ← Nat.mul_assoc]
  omega

theorem collected_of_pos {rank : Nat} (hr : 0 < rank) :
    collected p rank = collectedDecimal p (shortest p .evenDigit rank) :=
  if_neg (Nat.ne_of_gt hr)

/-- What is collected is the shortest decimal, and it fits 64 bits. -/
theorem collected_spec {rank : Nat} (hr : 0 < rank) :
    (∀ q, inUnits q (collected p rank) = inUnits q (shortest p .evenDigit rank)) ∧
      0 < (collected p rank).digits ∧ (collected p rank).digits ≤ 10 ^ 17 := by
  obtain ⟨hnearest, hdigits⟩ := shortest_spec p .evenDigit hr
  have hd := digits_pos_of_nearest hnearest hr
  have hcount : p.decimalDigits ≤ 17 := by cases p <;> decide
  have hrange : (compactRange p).2 ≤ 15 := by cases p <;> decide
  rw [collected_of_pos hr, collectedDecimal]
  split
  · next h =>
    obtain ⟨⟨-, hle⟩, he⟩ := h
    exact ⟨fun q => inUnits_written q he, by positivity, written_le hd he (hle.trans hrange)⟩
  · exact ⟨fun _ => rfl, hd, hdigits.trans (Nat.pow_le_pow_right (by decide) hcount)⟩

theorem nearest_collected (p : Precision) (rank : Nat) :
    Nearest p rank (inUnits p (collected p rank)) := by
  obtain rfl | hr := Nat.eq_zero_or_pos rank
  · have hzero : inUnits p (collected p 0) = units p 0 := by
      simp [collected, inUnits, units_zero]
    rw [hzero]
    exact nearest_units p 0
  · rw [(collected_spec hr).1 p]
    exact (shortest_spec p .evenDigit hr).1

theorem lt_wordLimit {n : Nat} (h : n ≤ 10 ^ 17) : n < wordLimit := by
  rw [wordLimit]
  omega

theorem read_compactDecimal (p : Precision) (negative : Bool) {d : Decimal} (hd : 0 < d.digits)
    (hn : d.digits < wordLimit) (hfits : (collectedDecimal p d).digits < wordLimit)
    (hplace : (leadingExponent d).natAbs < exponentLimit) {rest : List Char} (h : Ends rest) :
    readUnsignedNumber negative (compactDecimal p d ++ rest) =
      (floatOfParts negative (collectedDecimal p d).digits (collectedDecimal p d).exponent).map
        (·, rest) := by
  rw [collectedDecimal] at hfits ⊢
  rw [compactDecimal]
  by_cases hrange : (compactRange p).1 ≤ leadingExponent d ∧ leadingExponent d ≤ (compactRange p).2
  · by_cases he : 0 ≤ d.exponent
    · simp only [hrange, he, and_self, if_true] at hfits ⊢
      exact read_plainDigits_whole negative hd hfits he h
    · simp only [hrange, he, and_self, and_false, if_true, if_false]
      exact read_plainDigits_point negative hd hn (not_le.mp he) h
  · simp only [hrange, false_and, if_false]
    exact read_exponentDigits negative hn hplace h

/-- From the compact text of a finite magnitude its number is collected. -/
theorem readUnsignedNumber_compact (negative : Bool) {rank : Nat} (hf : rank < p.finiteCount)
    {rest : List Char} (h : Ends rest) :
    readUnsignedNumber negative (compactMagnitude p rank ++ rest) =
      (floatOfParts negative (collected p rank).digits (collected p rank).exponent).map
        (·, rest) := by
  obtain rfl | hr := Nat.eq_zero_or_pos rank
  · have hzero := read_point negative (wholePart_number 0) (fun _ => isDigit_of_mem_zero)
      (List.cons_ne_nil _ _) (by decide) (not_startsWithDigit h)
    exact hzero.trans (readTail_ends negative _ _ h)
  · obtain ⟨hnearest, hdigits⟩ := shortest_spec p .evenDigit hr
    obtain ⟨-, -, hfits⟩ := collected_spec (p := p) hr
    have hcount : p.decimalDigits ≤ 17 := by cases p <;> decide
    have htext : compactMagnitude p rank = compactDecimal p (shortest p .evenDigit rank) :=
      if_neg (Nat.ne_of_gt hr)
    rw [collected_of_pos hr] at hfits ⊢
    rw [htext]
    exact read_compactDecimal p negative (digits_pos_of_nearest hnearest hr)
      (lt_wordLimit (hdigits.trans (Nat.pow_le_pow_right (by decide) hcount)))
      (lt_wordLimit hfits) (natAbs_leadingExponent_lt hnearest hr hf) h

def StartsWithDigit (text : List Char) : Prop := ∃ c cs, text = c :: cs ∧ isDigit c = true

theorem StartsWithDigit.append {text : List Char} (h : StartsWithDigit text) (rest : List Char) :
    StartsWithDigit (text ++ rest) := by
  obtain ⟨c, cs, rfl, hc⟩ := h
  exact ⟨c, cs ++ rest, rfl, hc⟩

theorem startsWithDigit_digits {n : Nat} {text : List Char} (h : text <+: digitChars n)
    (hne : text ≠ []) : StartsWithDigit text := by
  cases text with
  | nil => exact absurd rfl hne
  | cons c cs => exact ⟨c, cs, rfl, isDigit_of_mem_digitChars (h.subset List.mem_cons_self)⟩

theorem startsWithDigit_digitChars (n : Nat) : StartsWithDigit (digitChars n) :=
  startsWithDigit_digits (List.prefix_refl _) Nat.toDigits_ne_nil

theorem startsWithDigit_plainDigits (d : Decimal) : StartsWithDigit (plainDigits d) := by
  simp only [plainDigits]
  split
  · exact (startsWithDigit_digitChars d.digits).append _
  · split
    · refine (startsWithDigit_digits (List.take_prefix _ _) ?_).append _
      refine List.ne_nil_of_length_pos ?_
      rw [List.length_take]
      omega
    · exact ⟨'0', _, rfl, rfl⟩

theorem startsWithDigit_exponentDigits (d : Decimal) : StartsWithDigit (exponentDigits d) := by
  obtain ⟨c, cs, hds, hc⟩ := startsWithDigit_digitChars d.digits
  rw [exponentDigits_eq, hds]
  cases cs with
  | nil => exact ⟨c, _, rfl, hc⟩
  | cons c' cs => exact ⟨c, _, rfl, hc⟩

theorem startsWithDigit_compact (p : Precision) (rank : Nat) :
    StartsWithDigit (compactMagnitude p rank) := by
  rw [compactMagnitude]
  split
  · exact ⟨'0', _, rfl, rfl⟩
  · simp only
    split
    · split
      · exact (startsWithDigit_plainDigits _).append _
      · exact startsWithDigit_plainDigits _
    · exact startsWithDigit_exponentDigits _

end NeuronKernels.CompactNumbers
