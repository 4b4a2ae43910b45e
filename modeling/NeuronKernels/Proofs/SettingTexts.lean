import NeuronKernels.SettingsDocument
import Mathlib.Algebra.Group.Nat.Defs
import Mathlib.Data.List.Induction

/-!
# What is written for a setting

What the value of a setting is written as is said here without a reader: a number by its decimal, a
flag by its words, any other setting by its own text. The readers of texts and of documents find
these values and no others (`readValue_eq_some_iff`, `valueOf_eq_some_iff`). That digits are zeros
in front of a decimal goes by induction from the last digit (`digits_eq_padded`).
-/

namespace NeuronKernels.SettingTexts
open TextPieces TomlDocument ToolSettings

/-- What a text stands for as a value of a kind. A number fits 64 bits and may have a plus sign and
zeros in front of it; the case of the letters of a flag does not matter. -/
inductive Denotes : Kind → String → ToolSettings.Value → Prop
  | number {sign : String} {zeros n : Nat} (signed : sign = "" ∨ sign = "+") (fits : n < 2 ^ 64) :
    Denotes .number (sign ++ String.ofList (List.replicate zeros '0') ++ toString n) (.number n)
  | yes {text word : String} (listed : word ∈ ["true", "1", "yes", "on"])
    (same : text.toList.map Char.toLower = word.toList) : Denotes .flag text (.flag true)
  | no {text word : String} (listed : word ∈ ["false", "0", "no", "off"])
    (same : text.toList.map Char.toLower = word.toList) : Denotes .flag text (.flag false)
  | text {text : String} : Denotes .text text (.text text)

/-- What a node of a document stands for; a number has no sign there. -/
inductive Stands : Kind → Node → ToolSettings.Value → Prop
  | number {n : Nat} : Stands .number (.integer n) (.number n)
  | flag {b : Bool} : Stands .flag (.boolean b) (.flag b)
  | text {s : String} : Stands .text (.text s) (.text s)

theorem not_denotes_flag {text : String}
    (apart : ∀ word ∈ ["true", "1", "yes", "on"] ++ ["false", "0", "no", "off"],
      text.toList.map Char.toLower ≠ word.toList) (v : ToolSettings.Value) :
    ¬Denotes .flag text v := by
  intro means
  cases means with
  | yes listed same => exact apart _ (List.mem_append_left _ listed) same
  | no listed same => exact apart _ (List.mem_append_right _ listed) same

theorem digitChar_digitValue {c : Char} (h : isDigit c = true) : (digitValue c).digitChar = c := by
  have range : 48 ≤ c.toNat ∧ c.toNat ≤ 57 := by simpa [isDigit] using h
  apply Char.toNat_inj.mp
  rw [digitValue, Nat.toNat_digitChar_of_lt_ten (by omega)]
  omega

theorem digits_eq_padded {ds : List Char} (digits : ∀ c ∈ ds, isDigit c = true) (begun : ds ≠ []) :
    ∃ zeros, ds = List.replicate zeros '0' ++ Nat.toDigits 10 (digitsFrom 0 ds) := by
  induction ds using List.reverseRecOn with
  | nil => exact absurd rfl begun
  | append_singleton front c ih =>
    have last := digits c (List.mem_append_right _ List.mem_cons_self)
    have small : digitValue c < 10 := by
      have range : 48 ≤ c.toNat ∧ c.toNat ≤ 57 := by simpa [isDigit] using last
      unfold digitValue
      omega
    have written : Nat.toDigits 10 (digitValue c) = [c] := by
      rw [Nat.toDigits_of_lt_base small, digitChar_digitValue last]
    have value : digitsFrom 0 (front ++ [c]) = 10 * digitsFrom 0 front + digitValue c := by
      rw [digitsFrom_append, Nat.mul_comm]
      rfl
    rcases eq_or_ne front [] with rfl | begun
    · exact ⟨0, by simpa [value, digitsFrom] using written.symm⟩
    · obtain ⟨zeros, padded⟩ := ih (fun d mem => digits d (List.mem_append_left _ mem)) begun
      rcases Nat.eq_zero_or_pos (digitsFrom 0 front) with none | some
      · -- the zero that was the whole number becomes one of those in front of it
        refine ⟨zeros + 1, ?_⟩
        rw [none] at padded value
        rw [value, Nat.mul_zero, Nat.zero_add, written, List.replicate_succ', padded]
        rfl
      · refine ⟨zeros, ?_⟩
        rw [value, ← Nat.toDigits_append_toDigits (by decide) some small, written,
          ← List.append_assoc, ← padded]

theorem isDigit_of_mem_padded {zeros n : Nat} {c : Char}
    (mem : c ∈ List.replicate zeros '0' ++ Nat.toDigits 10 n) : isDigit c = true := by
  rcases List.mem_append.mp mem with front | back
  · rw [List.eq_of_mem_replicate front]
    rfl
  · exact isDigit_of_mem_toDigits back

theorem padded_ne_signed (zeros n : Nat) (rest : List Char) :
    List.replicate zeros '0' ++ Nat.toDigits 10 n ≠ '+' :: rest := by
  intro h
  have plus : isDigit '+' = true := isDigit_of_mem_padded (h ▸ List.mem_cons_self)
  exact absurd plus (by decide)

theorem digits_read_iff {ds : List Char} {n : Nat} :
    (if ds.isEmpty || !ds.all isDigit then none
      else if digitsFrom 0 ds < wordLimit then some (digitsFrom 0 ds) else none) = some n ↔
      n < 2 ^ 64 ∧ ∃ zeros, ds = List.replicate zeros '0' ++ Nat.toDigits 10 n := by
  have limit : wordLimit = 2 ^ 64 := rfl
  have bad : (ds.isEmpty || !ds.all isDigit) = true ↔ ¬(ds ≠ [] ∧ ∀ c ∈ ds, isDigit c = true) := by
    simp only [Bool.or_eq_true, List.isEmpty_iff, Bool.not_eq_true', List.all_eq_false]
    grind
  rw [limit]
  constructor
  · intro h
    split at h
    · cases h
    · rename_i good
      obtain ⟨begun, digits⟩ := not_not.mp (mt bad.mpr good)
      split at h
      · rename_i fits
        obtain rfl := Option.some.inj h
        exact ⟨fits, digits_eq_padded digits begun⟩
      · cases h
  · rintro ⟨fits, zeros, rfl⟩
    have begun : List.replicate zeros '0' ++ Nat.toDigits 10 n ≠ [] :=
      List.append_ne_nil_of_right_ne_nil _ Nat.toDigits_ne_nil
    have value : digitsFrom 0 (List.replicate zeros '0' ++ Nat.toDigits 10 n) = n := by
      rw [digitsFrom_leading_zeros, digitsFrom_toDigits]
    have good := mt bad.mp (not_not.mpr ⟨begun, fun c => isDigit_of_mem_padded⟩)
    rw [if_neg good, value, if_pos fits]

theorem readUnsigned_eq_some_iff {text : String} {n : Nat} :
    readUnsigned text = some n ↔ n < 2 ^ 64 ∧ ∃ sign zeros, (sign = "" ∨ sign = "+") ∧
      text = sign ++ String.ofList (List.replicate zeros '0') ++ toString n := by
  have chars (sign : String) (zeros : Nat) :
      text = sign ++ String.ofList (List.replicate zeros '0') ++ toString n ↔
        text.toList = sign.toList ++ (List.replicate zeros '0' ++ Nat.toDigits 10 n) := by
    rw [← String.toList_inj]
    simp [Nat.toList_repr]
  have plus : "+".toList = ['+'] := rfl
  unfold readUnsigned
  split
  · rename_i rest signed
    rw [digits_read_iff]
    refine and_congr_right fun _ => ⟨?_, ?_⟩
    · rintro ⟨zeros, rfl⟩
      exact ⟨"+", zeros, .inr rfl, (chars "+" zeros).mpr (by rw [signed, plus]; rfl)⟩
    · rintro ⟨sign, zeros, rfl | rfl, written⟩
      · rw [chars, signed] at written
        exact absurd written.symm (padded_ne_signed zeros n rest)
      · rw [chars, signed, plus] at written
        exact ⟨zeros, (List.cons.inj written).2⟩
  · rename_i unsigned
    rw [digits_read_iff]
    refine and_congr_right fun _ => ⟨?_, ?_⟩
    · rintro ⟨zeros, padded⟩
      exact ⟨"", zeros, .inl rfl, (chars "" zeros).mpr padded⟩
    · rintro ⟨sign, zeros, rfl | rfl, written⟩
      · exact ⟨zeros, (chars "" zeros).mp written⟩
      · rw [chars, plus] at written
        exact absurd written (unsigned _)

theorem smallLetter_eq (c : Char) : smallLetter c = c.toLower := by
  unfold smallLetter
  split
  · rename_i capital
    have letter : c.val ≥ 'A'.val ∧ c.val ≤ 'Z'.val := capital
    have valid : (c.toNat + 32).isValidChar := .inl (by omega)
    have fits : (c.toNat + 32) % 2 ^ 32 = c.toNat + 32 := Nat.mod_eq_of_lt (by omega)
    have lower : c.toLower = ⟨c.val + 32, _⟩ := dif_pos letter
    apply Char.toNat_inj.mp
    rw [Char.ofNat, dif_pos valid, lower]
    exact fits.symm.trans (UInt32.toNat_add c.val 32).symm
  · rename_i other
    have none : ¬(c.val ≥ 'A'.val ∧ c.val ≤ 'Z'.val) := other
    have same : c.toLower = c := dif_neg none
    exact same.symm

theorem smallLetters_eq_iff {text word : String} :
    smallLetters text = word ↔ text.toList.map Char.toLower = word.toList := by
  have letters : smallLetter = Char.toLower := funext smallLetter_eq
  rw [← String.toList_inj, smallLetters, String.toList_ofList, letters]

theorem smallLetters_mem_iff {text : String} {words : List String} : smallLetters text ∈ words ↔
    ∃ word ∈ words, text.toList.map Char.toLower = word.toList := by
  simp only [← smallLetters_eq_iff, exists_eq_right']

theorem readFlag_eq_some_iff {text : String} {b : Bool} : readFlag text = some b ↔
    smallLetters text ∈ if b then ["true", "1", "yes", "on"] else ["false", "0", "no", "off"] := by
  have apart : ∀ word ∈ ["false", "0", "no", "off"], word ∉ ["true", "1", "yes", "on"] := by decide
  unfold readFlag
  simp only [List.contains_iff_mem]
  generalize ["true", "1", "yes", "on"] = affirmative at apart ⊢
  generalize ["false", "0", "no", "off"] = negative at apart ⊢
  by_cases yes : smallLetters text ∈ affirmative
  · have no : smallLetters text ∉ negative := fun mem => apart _ mem yes
    cases b <;> simp [yes, no]
  · cases b <;> simp [yes]

theorem readValue_eq_some_iff {kind : Kind} {text : String} {v : ToolSettings.Value} :
    readValue kind text = some v ↔ Denotes kind text v := by
  constructor
  · intro h
    cases kind with
    | number =>
      obtain ⟨n, read, rfl⟩ := Option.map_eq_some_iff.mp h
      obtain ⟨fits, sign, zeros, signed, rfl⟩ := readUnsigned_eq_some_iff.mp read
      exact .number signed fits
    | flag =>
      obtain ⟨b, read, rfl⟩ := Option.map_eq_some_iff.mp h
      have spelled := readFlag_eq_some_iff.mp read
      cases b with
      | true =>
        obtain ⟨word, listed, same⟩ := smallLetters_mem_iff.mp spelled
        exact .yes listed same
      | false =>
        obtain ⟨word, listed, same⟩ := smallLetters_mem_iff.mp spelled
        exact .no listed same
    | text =>
      obtain rfl := Option.some.inj h
      exact .text
  · intro h
    cases h with
    | number signed fits =>
      exact Option.map_eq_some_iff.mpr
        ⟨_, readUnsigned_eq_some_iff.mpr ⟨fits, _, _, signed, rfl⟩, rfl⟩
    | yes listed same =>
      have spelled := smallLetters_mem_iff.mpr ⟨_, listed, same⟩
      exact Option.map_eq_some_iff.mpr ⟨true, readFlag_eq_some_iff.mpr spelled, rfl⟩
    | no listed same =>
      have spelled := smallLetters_mem_iff.mpr ⟨_, listed, same⟩
      exact Option.map_eq_some_iff.mpr ⟨false, readFlag_eq_some_iff.mpr spelled, rfl⟩
    | text => rfl

theorem valueOf_eq_some_iff {kind : Kind} {node : Node} {v : ToolSettings.Value} :
    SettingsDocument.valueOf kind node = some v ↔ Stands kind node v := by
  constructor
  · intro h
    unfold SettingsDocument.valueOf at h
    split at h
    · rename_i n
      split at h
      · rename_i positive
        obtain rfl := Option.some.inj h
        obtain ⟨m, rfl⟩ := Int.eq_ofNat_of_zero_le positive
        exact .number
      · cases h
    · obtain rfl := Option.some.inj h
      exact .flag
    · obtain rfl := Option.some.inj h
      exact .text
    · cases h
  · intro h
    cases h <;> rfl

end NeuronKernels.SettingTexts
