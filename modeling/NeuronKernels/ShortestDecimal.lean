import NeuronKernels.BinaryFloat

/-!
# The fewest digits that read back

Every positive magnitude is the nearest one to an interval of reals: half of the way to either
neighbour, the ends included when the rank is even. `shortest` looks at grids of ever more
significant digits and takes the first one with a point in that interval. Only the two neighbours
of the magnitude on a grid can be its points there; if both are, the nearer wins, and `Tie` says
which of two equally near ones does.
-/

namespace NeuronKernels.ShortestDecimal
open BinaryFloat

/-- Which of two equally near decimals is taken. -/
inductive Tie
  | upper
  | evenDigit
  deriving DecidableEq

/-- The decimal `digits` times ten to the `exponent`. -/
structure Decimal where
  digits : Nat
  exponent : Int
  deriving DecidableEq, Repr

/-- Number of decimal digits; one for zero. -/
def digitCount (n : Nat) : Nat := (Nat.toDigits 10 n).length

/-- Twice the lower end of the interval of a rank, in units. -/
def lowerTwice (p : Precision) (rank : Nat) : Nat := units p (rank - 1) + units p rank

/-- Twice the upper end of the interval of a rank, in units. -/
def upperTwice (p : Precision) (rank : Nat) : Nat := units p rank + units p (rank + 1)

/-- A decimal compared with `twice` half-units: the two sides of the comparison brought to whole
numbers. -/
def scaled (p : Precision) (d : Decimal) (twice : Nat) : Nat × Nat :=
  if 0 ≤ d.exponent then
    (d.digits * tenTo d.exponent.toNat * twoTo (p.unitExponent + 1), twice)
  else
    (d.digits * twoTo (p.unitExponent + 1), twice * tenTo (-d.exponent).toNat)

def readsBack (p : Precision) (rank : Nat) (d : Decimal) : Bool :=
  let low := scaled p d (lowerTwice p rank)
  let high := scaled p d (upperTwice p rank)
  if rank % 2 = 0 then low.2 ≤ low.1 && high.1 ≤ high.2
  else low.2 < low.1 && high.1 < high.2

/-- The place of the leading digit: the magnitude is at least ten to this less one, and below ten
to this. -/
def leadingPlace (p : Precision) (rank : Nat) : Int :=
  let unit := twoTo p.unitExponent
  let whole := units p rank / unit
  if 0 < whole then (digitCount whole : Int)
  else
    let inverse := (unit + units p rank - 1) / units p rank
    1 - (digitCount (inverse - 1) : Int)

/-- The grid point just below the magnitude, as a multiple of ten to the `exponent`. -/
def gridFloor (p : Precision) (rank : Nat) (exponent : Int) : Nat :=
  if 0 ≤ exponent then units p rank / (twoTo p.unitExponent * tenTo exponent.toNat)
  else units p rank * tenTo (-exponent).toNat / twoTo p.unitExponent

/-- The nearer of the grid points `below` and `below + 1`. -/
def nearer (p : Precision) (tie : Tie) (rank below : Nat) (exponent : Int) : Nat :=
  let (middle, value) := scaled p ⟨2 * below + 1, exponent⟩ (4 * units p rank)
  if value < middle then below
  else if middle < value then below + 1
  else match tie with
    | .upper => below + 1
    | .evenDigit => if below % 2 = 0 then below else below + 1

/-- The best point of one grid, if one reads back. -/
def onGrid (p : Precision) (tie : Tie) (rank : Nat) (exponent : Int) : Option Decimal :=
  let below := gridFloor p rank exponent
  match readsBack p rank ⟨below, exponent⟩, readsBack p rank ⟨below + 1, exponent⟩ with
  | true, true => some ⟨nearer p tie rank below exponent, exponent⟩
  | true, false => some ⟨below, exponent⟩
  | false, true => some ⟨below + 1, exponent⟩
  | false, false => none

/-- Tries the grids of `count`, `count + 1`, … digits, `more` of them after the first. -/
def firstGrid (p : Precision) (tie : Tie) (rank : Nat) (place : Int) : (more count : Nat) → Decimal
  | 0, count => ⟨gridFloor p rank (place - count), place - count⟩
  | more + 1, count =>
    match onGrid p tie rank (place - count) with
    | some d => d
    | none => firstGrid p tie rank place more (count + 1)

/-- The decimal without trailing zeros, at most `fuel` of them. -/
def withoutZeros : (fuel : Nat) → Decimal → Decimal
  | 0, d => d
  | fuel + 1, d =>
    if d.digits ≠ 0 ∧ d.digits % 10 = 0 then withoutZeros fuel ⟨d.digits / 10, d.exponent + 1⟩
    else d

/-- The decimal with the fewest digits that reads back to a positive magnitude. -/
def shortest (p : Precision) (tie : Tie) (rank : Nat) : Decimal :=
  withoutZeros p.decimalDigits
    (firstGrid p tie rank (leadingPlace p rank) p.decimalDigits 1)

end NeuronKernels.ShortestDecimal
