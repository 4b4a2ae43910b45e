/-!
# Cutting and joining text

The few operations on text that the readers and writers of this library share. Text is cut as a
list of characters, so that every operation is a recursion on the list, and joined as strings.
The order `precedes` compares code points, which is also the order of the encoded bytes.
-/

namespace NeuronKernels.TextPieces

/-- The rest of `text` after `start`, if `text` begins with it. -/
def stripStart : (start text : List Char) → Option (List Char)
  | [], text => some text
  | _ :: _, [] => none
  | c :: start, d :: text => if c = d then stripStart start text else none

theorem stripStart_append (start rest : List Char) :
    stripStart start (start ++ rest) = some rest := by
  induction start with
  | nil => rfl
  | cons c start ih => simpa [stripStart] using ih

theorem eq_append_of_stripStart {start text rest : List Char}
    (h : stripStart start text = some rest) : text = start ++ rest := by
  induction start generalizing text with
  | nil => simpa [stripStart] using h
  | cons c start ih =>
    cases text with
    | nil => simp [stripStart] at h
    | cons d text =>
      by_cases hcd : c = d
      · subst hcd
        simp only [stripStart, if_true] at h
        simp [ih h]
      · simp [stripStart, hcd] at h

/-- The part of `text` before `ending`, if `text` closes with it. -/
def stripEnd (ending text : List Char) : Option (List Char) :=
  (stripStart ending.reverse text.reverse).map List.reverse

theorem stripEnd_eq_some_iff {ending text start : List Char} :
    stripEnd ending text = some start ↔ text = start ++ ending := by
  constructor
  · intro h
    obtain ⟨r, hr, rfl⟩ := Option.map_eq_some_iff.1 h
    have := congrArg List.reverse (eq_append_of_stripStart hr)
    simpa using this
  · rintro rfl
    simp [stripEnd, stripStart_append]

def dropStart (start text : String) : Option String :=
  (stripStart start.toList text.toList).map String.ofList

def dropEnd (ending text : String) : Option String :=
  (stripEnd ending.toList text.toList).map String.ofList

theorem dropStart_eq_some_iff {start text rest : String} :
    dropStart start text = some rest ↔ text = start ++ rest := by
  constructor
  · intro h
    obtain ⟨cs, hcs, rfl⟩ := Option.map_eq_some_iff.1 h
    apply String.ext
    simpa using eq_append_of_stripStart hcs
  · rintro rfl
    simp [dropStart, stripStart_append]

theorem dropEnd_eq_some_iff {ending text start : String} :
    dropEnd ending text = some start ↔ text = start ++ ending := by
  constructor
  · intro h
    obtain ⟨cs, hcs, rfl⟩ := Option.map_eq_some_iff.1 h
    apply String.ext
    simpa using stripEnd_eq_some_iff.1 hcs
  · rintro rfl
    have hcs : stripEnd ending.toList (start.toList ++ ending.toList) = some start.toList :=
      stripEnd_eq_some_iff.2 rfl
    simp [dropEnd, hcs]

/-- The pieces between the occurrences of `mark`: one more than there are marks. -/
def splitOn (mark : Char) : List Char → List (List Char)
  | [] => [[]]
  | c :: text =>
    if c = mark then [] :: splitOn mark text
    else
      match splitOn mark text with
      | [] => [[c]]
      | piece :: pieces => (c :: piece) :: pieces

theorem splitOn_ne_nil (mark : Char) (text : List Char) : splitOn mark text ≠ [] := by
  cases text with
  | nil => simp [splitOn]
  | cons c text =>
    by_cases h : c = mark
    · simp [splitOn, h]
    · simp only [splitOn, h, if_false]
      split <;> simp

theorem splitOn_append (mark : Char) (text rest : List Char) :
    splitOn mark (text ++ mark :: rest) = splitOn mark text ++ splitOn mark rest := by
  induction text with
  | nil => simp [splitOn]
  | cons c text ih =>
    by_cases h : c = mark
    · simp [splitOn, h, ih]
    · obtain ⟨piece, pieces, hs⟩ := List.exists_cons_of_ne_nil (splitOn_ne_nil mark text)
      simp [splitOn, h, ih, hs]

theorem splitOn_of_not_mem {mark : Char} {piece : List Char} (h : mark ∉ piece) :
    splitOn mark piece = [piece] := by
  induction piece with
  | nil => rfl
  | cons c piece ih =>
    obtain ⟨hc, hpiece⟩ := not_or.mp (mt List.mem_cons.mpr h)
    rw [splitOn, if_neg (Ne.symm hc), ih hpiece]

theorem of_mem_splitOn {mark : Char} {text piece : List Char} (h : piece ∈ splitOn mark text) :
    mark ∉ piece ∧ piece ⊆ text := by
  induction text generalizing piece with
  | nil =>
    obtain rfl : piece = [] := by simpa [splitOn] using h
    simp
  | cons c text ih =>
    by_cases hc : c = mark
    · rw [splitOn, if_pos hc] at h
      obtain rfl | h := List.mem_cons.mp h
      · simp
      · exact ⟨(ih h).1, List.subset_cons_of_subset c (ih h).2⟩
    · obtain ⟨first, pieces, hpieces⟩ := List.exists_cons_of_ne_nil (splitOn_ne_nil mark text)
      rw [hpieces] at ih
      simp only [splitOn, if_neg hc, hpieces] at h
      obtain rfl | h := List.mem_cons.mp h
      · obtain ⟨hmark, hsub⟩ := ih List.mem_cons_self
        exact ⟨by simp [hmark, Ne.symm hc], List.cons_subset_cons c hsub⟩
      · have hlater := ih (List.mem_cons_of_mem first h)
        exact ⟨hlater.1, List.subset_cons_of_subset c hlater.2⟩

/-- How many bytes the encoding of the characters has. -/
def byteCount : List Char → Nat
  | [] => 0
  | c :: cs => c.utf8Size + byteCount cs

/-- The characters of the first bytes; one that is cut through counts as a whole. -/
def takeBytes : Nat → List Char → List Char
  | _, [] => []
  | count, c :: cs => if count = 0 then [] else c :: takeBytes (count - c.utf8Size) cs

def dropBytes : Nat → List Char → List Char
  | _, [] => []
  | count, c :: cs => if count = 0 then c :: cs else dropBytes (count - c.utf8Size) cs

def concat : List String → String
  | [] => ""
  | s :: rest => s ++ concat rest

theorem concat_append (xs ys : List String) : concat (xs ++ ys) = concat xs ++ concat ys := by
  induction xs with
  | nil => simp [concat]
  | cons s xs ih => simp [concat, ih, String.append_assoc]

/-- The strings of the list with `mark` between neighbours. -/
def joinWith (mark : String) : List String → String
  | [] => ""
  | [s] => s
  | s :: t :: rest => s ++ mark ++ joinWith mark (t :: rest)

theorem splitOn_joinWith {mark : Char} {sep : String} (hsep : sep.toList = [mark])
    {texts : List String} (begun : texts ≠ []) (h : ∀ text ∈ texts, mark ∉ text.toList) :
    splitOn mark (joinWith sep texts).toList = texts.map String.toList := by
  induction texts with
  | nil => exact absurd rfl begun
  | cons text rest ih =>
    obtain ⟨first, others⟩ := List.forall_mem_cons.mp h
    cases rest with
    | nil => exact splitOn_of_not_mem first
    | cons next rest =>
      rw [joinWith, String.toList_append, String.toList_append, hsep, List.append_assoc,
        List.singleton_append, splitOn_append, splitOn_of_not_mem first,
        ih (List.cons_ne_nil _ _) others]
      rfl

theorem joinWith_splitOn {mark : Char} {sep : String} (hsep : sep.toList = [mark])
    (text : List Char) :
    joinWith sep ((splitOn mark text).map String.ofList) = String.ofList text := by
  induction text with
  | nil => rfl
  | cons c text ih =>
    obtain ⟨first, pieces, hpieces⟩ := List.exists_cons_of_ne_nil (splitOn_ne_nil mark text)
    rw [hpieces] at ih
    by_cases hc : c = mark
    · subst hc
      simp only [splitOn, if_true, hpieces, List.map_cons, joinWith] at ih ⊢
      rw [ih]
      apply String.ext
      simp [hsep]
    · simp only [splitOn, if_neg hc, hpieces, List.map_cons] at ih ⊢
      -- the character stands in front of the first piece, whether others follow or not
      have front : joinWith sep (String.ofList (c :: first) :: pieces.map String.ofList) =
          String.ofList [c] ++ joinWith sep (String.ofList first :: pieces.map String.ofList) := by
        cases pieces <;> simp [joinWith, ← String.append_assoc]
      rw [front, ih, ← String.ofList_append, List.singleton_append]

/-- Strictly earlier in the order of code points; a proper beginning comes first. -/
def charsPrecede : List Char → List Char → Bool
  | [], [] => false
  | [], _ :: _ => true
  | _ :: _, [] => false
  | c :: cs, d :: ds =>
    if c.toNat < d.toNat then true else if d.toNat < c.toNat then false else charsPrecede cs ds

def precedes (s t : String) : Bool := charsPrecede s.toList t.toList

/-- The list in the order of `precedes`; equal keys keep their places. -/
def sortByText {α : Type} (key : α → String) (items : List α) : List α :=
  items.mergeSort fun a b => !precedes (key b) (key a)

/-- An ASCII letter in its small form. No other character has a small form among the ASCII letters
of the words that this library compares without regard to case, so all else is left alone. -/
def smallLetter (c : Char) : Char :=
  if 65 ≤ c.toNat ∧ c.toNat ≤ 90 then Char.ofNat (c.toNat + 32) else c

def smallLetters (s : String) : String := String.ofList (s.toList.map smallLetter)

def isDigit (c : Char) : Bool := 48 ≤ c.toNat && c.toNat ≤ 57

def digitValue (c : Char) : Nat := c.toNat - 48

def hexValue (c : Char) : Option Nat :=
  let n := c.toNat
  if 48 ≤ n ∧ n ≤ 57 then some (n - 48)
  else if 65 ≤ n ∧ n ≤ 70 then some (n - 55)
  else if 97 ≤ n ∧ n ≤ 102 then some (n - 87)
  else none

def isAsciiLetter (c : Char) : Bool :=
  (65 ≤ c.toNat && c.toNat ≤ 90) || (97 ≤ c.toNat && c.toNat ≤ 122)

/-- The value that a run of ASCII digits denotes, continuing from `start`. -/
def digitsFrom (start : Nat) (ds : List Char) : Nat :=
  ds.foldl (fun n c => n * 10 + digitValue c) start

theorem digitsFrom_append (cs ds : List Char) (n : Nat) :
    digitsFrom n (cs ++ ds) = digitsFrom (digitsFrom n cs) ds := List.foldl_append

theorem digitsFrom_leading_zeros (zeros : Nat) (ds : List Char) :
    digitsFrom 0 (List.replicate zeros '0' ++ ds) = digitsFrom 0 ds := by
  induction zeros with
  | zero => rfl
  | succ zeros ih => exact ih

theorem digitsFrom_toDigits (n : Nat) : digitsFrom 0 (Nat.toDigits 10 n) = n := by
  have hsame : ∀ (cs : List Char) (start : Nat),
      digitsFrom start cs = Nat.ofDigitChars 10 cs start := by
    intro cs start
    rw [Nat.ofDigitChars_eq_foldl, digitsFrom]
    simp only [digitValue, Nat.mul_comm]
    rfl
  rw [hsame]
  exact Nat.ofDigitChars_ten_toDigits

theorem isDigit_of_mem_toDigits {n : Nat} {c : Char} (h : c ∈ Nat.toDigits 10 n) :
    isDigit c = true := by
  have hdigit : c.isDigit = true := Nat.isDigit_of_mem_toDigits (by decide) (by decide) h
  have hrange := Char.isDigit_iff_toNat.mp hdigit
  simpa [isDigit] using hrange

/-- Two to the 64: the first number that does not fit 64 bits. -/
def wordLimit : Nat := 18446744073709551616

/-- Two to the 63: the first number that does not fit 64 bits with a sign. -/
def signedLimit : Nat := 9223372036854775808

/-- An unsigned number of 64 bits: one optional plus sign, then ASCII digits and nothing else. -/
def readUnsigned (s : String) : Option Nat :=
  let digits := match s.toList with
    | '+' :: rest => rest
    | all => all
  if digits.isEmpty || !digits.all isDigit then none
  else
    let n := digitsFrom 0 digits
    if n < wordLimit then some n else none

end NeuronKernels.TextPieces
