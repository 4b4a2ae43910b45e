import NeuronKernels.BlankCharacters
import NeuronKernels.TextPieces

/-!
# Time stamps of runs

A run is named by the moment at which it started: year, month and day, an underscore, hour, minute
and second. When a stamp is read, blanks may stand before each number, a year has up to four digits
or a sign and any number of them, and each other number has one or two digits. The moment must
exist; a minute may have a sixty-first second.
-/

namespace NeuronKernels.RunStamp
open BlankCharacters TextPieces

/-- A moment, to the second. -/
structure Stamp where
  year : Int
  month : Nat
  day : Nat
  hour : Nat
  minute : Nat
  second : Nat
  deriving DecidableEq, Repr

/-- A number of one to `most` digits. -/
def readDigits (most : Nat) (cs : List Char) : Option (Nat × List Char) :=
  let ds := (cs.take most).takeWhile isDigit
  if ds.isEmpty then none else some (digitsFrom 0 ds, cs.drop ds.length)

/-- A number of one or two digits within bounds, after blanks. -/
def readPart (low high : Nat) (cs : List Char) : Option (Nat × List Char) :=
  match readDigits 2 (dropBlanks cs) with
  | none => none
  | some (n, rest) => if low ≤ n ∧ n ≤ high then some (n, rest) else none

def readYear (cs : List Char) : Option (Int × List Char) :=
  match dropBlanks cs with
  | '-' :: rest => (readDigits rest.length rest).map fun r => (-(r.1 : Int), r.2)
  | '+' :: rest => (readDigits rest.length rest).map fun r => ((r.1 : Int), r.2)
  | rest => (readDigits 4 rest).map fun r => ((r.1 : Int), r.2)

def isLeapYear (year : Int) : Bool :=
  year % 4 == 0 && (year % 100 != 0 || year % 400 == 0)

def daysIn (year : Int) (month : Nat) : Nat :=
  if month = 2 then if isLeapYear year then 29 else 28
  else if month = 4 ∨ month = 6 ∨ month = 9 ∨ month = 11 then 30
  else 31

/-- The first and the last year that there are. -/
def yearBounds : Int × Int := (-262143, 262142)

def hasDay (s : Stamp) : Bool :=
  yearBounds.1 ≤ s.year && s.year ≤ yearBounds.2 && s.day ≤ daysIn s.year s.month

def passUnderscore : List Char → Option (List Char)
  | '_' :: rest => some rest
  | _ => none

def ofText (text : String) : Option Stamp := do
  let (year, cs) ← readYear text.toList
  let (month, cs) ← readPart 1 12 cs
  let (day, cs) ← readPart 1 31 cs
  let cs ← passUnderscore cs
  let (hour, cs) ← readPart 0 23 cs
  let (minute, cs) ← readPart 0 59 cs
  let (second, cs) ← readPart 0 60 cs
  let stamp : Stamp := ⟨year, month, day, hour, minute, second⟩
  if cs.isEmpty && hasDay stamp then some stamp else none

end NeuronKernels.RunStamp
