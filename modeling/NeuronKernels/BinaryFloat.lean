/-!
# Binary floating-point values of two precisions

A finite magnitude is stored as its rank: its place among the finite magnitudes of the precision,
counted from zero. Every finite magnitude is a whole number of units, the unit being the smallest
positive magnitude, and `units` gives that number. Arithmetic is exact on whole numbers and rounds
once, to the nearest magnitude, a tie to the even rank (`rankNear`). A rank past the last finite one
stands for infinity.
-/

namespace NeuronKernels.BinaryFloat

def twoTo (n : Nat) : Nat := Nat.pow 2 n

def tenTo (n : Nat) : Nat := Nat.pow 10 n

/-- The two element types of an arena. -/
inductive Precision
  | single
  | double
  deriving DecidableEq, Repr

namespace Precision

/-- Bits of a significand after the leading one. -/
def fractionBits : Precision → Nat
  | single => 23
  | double => 52

def exponentBits : Precision → Nat
  | single => 8
  | double => 11

/-- The unit is two to the minus this power. -/
def unitExponent : Precision → Nat
  | single => 149
  | double => 1074

def finiteCount (p : Precision) : Nat := (twoTo p.exponentBits - 1) * twoTo p.fractionBits

/-- Significant decimal digits that always suffice to tell two values apart. -/
def decimalDigits : Precision → Nat
  | single => 9
  | double => 17

end Precision

/-- A value: not a number, an infinity, or a sign and the rank of a finite magnitude. -/
inductive Value (p : Precision)
  | nan
  | infinity (negative : Bool)
  | finite (negative : Bool) (rank : Fin p.finiteCount)
  deriving DecidableEq

/-- The magnitude of a rank, in units. Ranks below the first full significand are the magnitude
itself; from there on each block of ranks doubles the step. -/
def units (p : Precision) (rank : Nat) : Nat :=
  let full := twoTo p.fractionBits
  if rank < full then rank else (full + rank % full) * twoTo (rank / full - 1)

/-- The whole number nearest to `num / den`, a tie to the even one. -/
def nearestEven (num den : Nat) : Nat :=
  let q := num / den
  let twice := 2 * (num % den)
  if twice < den then q
  else if den < twice then q + 1
  else if q % 2 = 0 then q else q + 1

/-- The rank nearest to `num / den` units. -/
def rankNear (p : Precision) (num den : Nat) : Nat :=
  let whole := num / den
  let shift := if whole < twoTo (p.fractionBits + 1) then 0 else Nat.log2 whole - p.fractionBits
  shift * twoTo p.fractionBits + nearestEven num (den * twoTo shift)

namespace Value
variable {p : Precision}

def ofRank (negative : Bool) (rank : Nat) : Value p :=
  if h : rank < p.finiteCount then .finite negative ⟨rank, h⟩ else .infinity negative

/-- The value nearest to `num / den` units, with that sign. -/
def ofUnits (negative : Bool) (num den : Nat) : Value p := ofRank negative (rankNear p num den)

def ofNat (n : Nat) : Value p := ofUnits false (n * twoTo p.unitExponent) 1

def zero : Value p := ofRank false 0

def isFinite : Value p → Bool
  | .finite _ _ => true
  | _ => false

def negate : Value p → Value p
  | .nan => .nan
  | .infinity s => .infinity !s
  | .finite s r => .finite (!s) r

/-- Numeric equality: zeros of either sign are equal, and not-a-number differs from itself. -/
def agrees : Value p → Value p → Bool
  | .infinity s, .infinity t => s == t
  | .finite s r, .finite t q => r.val == q.val && (s == t || r.val == 0)
  | _, _ => false

def signedUnits (negative : Bool) (rank : Nat) : Int :=
  if negative then -(units p rank : Int) else (units p rank : Int)

/-- The rounded sum. A sum of zero is positive unless both terms are negative. -/
def add : Value p → Value p → Value p
  | .nan, _ => .nan
  | _, .nan => .nan
  | .infinity s, .infinity t => if s = t then .infinity s else .nan
  | .infinity s, .finite _ _ => .infinity s
  | .finite _ _, .infinity t => .infinity t
  | .finite s r, .finite t q =>
    let sum := signedUnits (p := p) s r + signedUnits (p := p) t q
    if sum = 0 then ofRank (s && t) 0
    else ofUnits (decide (sum < 0)) sum.natAbs 1

def mul : Value p → Value p → Value p
  | .nan, _ => .nan
  | _, .nan => .nan
  | .infinity s, .infinity t => .infinity (s != t)
  | .infinity s, .finite t q => if q.val = 0 then .nan else .infinity (s != t)
  | .finite s r, .infinity t => if r.val = 0 then .nan else .infinity (s != t)
  | .finite s r, .finite t q =>
    ofUnits (s != t) (units p r * units p q) (twoTo p.unitExponent)

def div : Value p → Value p → Value p
  | .nan, _ => .nan
  | _, .nan => .nan
  | .infinity _, .infinity _ => .nan
  | .infinity s, .finite t _ => .infinity (s != t)
  | .finite s _, .infinity t => ofRank (s != t) 0
  | .finite s r, .finite t q =>
    if q.val = 0 then if r.val = 0 then .nan else .infinity (s != t)
    else ofUnits (s != t) (units p r * twoTo p.unitExponent) (units p q)

def convert (q : Precision) : Value p → Value q
  | .nan => .nan
  | .infinity s => .infinity s
  | .finite s r => ofUnits s (units p r * twoTo q.unitExponent) (twoTo p.unitExponent)

/-- The value nearest to `digits` times ten to the `exponent`. Exponents that leave the range of
either precision, whatever the digits, are cut off first, so that no huge power is formed. -/
def ofDecimal (negative : Bool) (digits : Nat) (exponent : Int) : Value p :=
  if digits = 0 then ofRank negative 0
  else if 400 < exponent then .infinity negative
  else if exponent + (Nat.log2 digits : Int) < -1200 then ofRank negative 0
  else if 0 ≤ exponent then
    ofUnits negative (digits * tenTo exponent.toNat * twoTo p.unitExponent) 1
  else ofUnits negative (digits * twoTo p.unitExponent) (tenTo (-exponent).toNat)

end Value

end NeuronKernels.BinaryFloat
