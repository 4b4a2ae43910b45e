import NeuronKernels.ShortestDecimal
import NeuronKernels.TextPieces

/-!
# Decimal spellings of values

Two layouts of the shortest digits. The plain one never writes an exponent and no point where none
is needed; it is used in generated sources. The compact one keeps at least one digit after the
point and goes over to an exponent for very large and very small values; it is used in snapshots.
`readValue` reads a decimal spelling back, correctly rounded.
-/

namespace NeuronKernels.DecimalText
open BinaryFloat ShortestDecimal TextPieces

def digitChars (n : Nat) : List Char := Nat.toDigits 10 n

/-- Digits and exponent without an exponent mark: zeros are added at either end as needed. -/
def plainDigits (d : Decimal) : List Char :=
  let ds := digitChars d.digits
  if 0 ≤ d.exponent then ds ++ List.replicate d.exponent.toNat '0'
  else
    let places := (-d.exponent).toNat
    if places < ds.length then ds.take (ds.length - places) ++ '.' :: ds.drop (ds.length - places)
    else '0' :: '.' :: List.replicate (places - ds.length) '0' ++ ds

def signed (negative : Bool) (cs : List Char) : List Char := if negative then '-' :: cs else cs

def plainMagnitude (p : Precision) (rank : Nat) : List Char :=
  if rank = 0 then ['0'] else plainDigits (shortest p .upper rank)

/-- The spelling of a value without an exponent: `0.1`, `-0`, `1000000`, `inf`, `NaN`. -/
def plainText {p : Precision} : Value p → String
  | .nan => "NaN"
  | .infinity negative => if negative then "-inf" else "inf"
  | .finite negative rank => String.ofList (signed negative (plainMagnitude p rank))

/-- The exponents of the leading digit that the compact layout writes without an exponent mark. -/
def compactRange : Precision → Int × Int
  | .single => (-6, 12)
  | .double => (-5, 15)

/-- One digit, the others after a point, and the exponent of the first with its sign. -/
def exponentDigits (d : Decimal) : List Char :=
  let ds := digitChars d.digits
  let place := d.exponent + (ds.length : Int) - 1
  let mantissa := match ds with
    | [] => []
    | [c] => [c]
    | c :: rest => c :: '.' :: rest
  mantissa ++ 'e' :: (if place < 0 then '-' else '+') :: digitChars place.natAbs

def compactMagnitude (p : Precision) (rank : Nat) : List Char :=
  if rank = 0 then ['0', '.', '0']
  else
    let d := shortest p .evenDigit rank
    let place := d.exponent + ((digitChars d.digits).length : Int) - 1
    if (compactRange p).1 ≤ place ∧ place ≤ (compactRange p).2 then
      if 0 ≤ d.exponent then plainDigits d ++ ['.', '0'] else plainDigits d
    else exponentDigits d

/-- The compact layout of a finite value; there is none for the others. -/
def compactChars {p : Precision} : Value p → Option (List Char)
  | .finite negative rank => some (signed negative (compactMagnitude p rank))
  | _ => none

def compactText {p : Precision} (v : Value p) : String :=
  match compactChars v with
  | some cs => String.ofList cs
  | none => "null"

def readSign : List Char → Bool × List Char
  | '-' :: rest => (true, rest)
  | '+' :: rest => (false, rest)
  | rest => (false, rest)

/-- The exponent of a decimal spelling: nothing, or a mark, an optional sign and digits. -/
def readExponent : List Char → Option Int
  | [] => some 0
  | c :: rest =>
    if c = 'e' ∨ c = 'E' then
      let (negative, ds) := readSign rest
      if ds.isEmpty || !ds.all isDigit then none
      else
        let n : Int := (digitsFrom 0 ds : Nat)
        some (if negative then -n else n)
    else none

/-- The digits of a decimal spelling without sign, as a number, and the power of ten that belongs
to the last one. There is a digit at least, before the point or behind it. -/
def readDecimal (cs : List Char) : Option (Nat × Int) :=
  let whole := cs.takeWhile isDigit
  let rest := cs.dropWhile isDigit
  let (fraction, tail) := match rest with
    | '.' :: more => (more.takeWhile isDigit, more.dropWhile isDigit)
    | _ => ([], rest)
  if whole.isEmpty && fraction.isEmpty then none
  else (readExponent tail).map fun e => (digitsFrom 0 (whole ++ fraction), e - fraction.length)

/-- A value from a decimal spelling, an infinity or not-a-number; the digits are rounded once. -/
def readValue (p : Precision) (s : String) : Option (Value p) :=
  if s = "NaN" then some .nan
  else
    let (negative, body) := readSign s.toList
    if String.ofList body = "inf" then some (.infinity negative)
    else (readDecimal body).map fun d => Value.ofDecimal negative d.1 d.2

/-- The words for values that have no digits, in small letters. -/
def valueWords : List String := ["inf", "infinity", "nan"]

/-- Whether a text is a number: after an optional sign a decimal spelling or one of the words, in
any letters. -/
def isNumeral (s : String) : Bool :=
  let (_, body) := readSign s.toList
  (readDecimal body).isSome || valueWords.contains (smallLetters (String.ofList body))

end NeuronKernels.DecimalText
