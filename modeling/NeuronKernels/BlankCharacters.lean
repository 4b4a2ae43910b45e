import NeuronKernels.TextPieces

/-!
# Blank characters

The twenty-five characters with the property White_Space, and removing them from the ends of a
text. The set is closed: later versions of the standard have not added to it.
-/

namespace NeuronKernels.BlankCharacters

/-- The characters with the property White_Space. -/
def isBlank (c : Char) : Bool :=
  let n := c.toNat
  (9 ≤ n && n ≤ 13) || n == 0x20 || n == 0x85 || n == 0xa0 || n == 0x1680
    || (0x2000 ≤ n && n ≤ 0x200a) || n == 0x2028 || n == 0x2029 || n == 0x202f
    || n == 0x205f || n == 0x3000

def dropBlanks : List Char → List Char
  | [] => []
  | c :: cs => if isBlank c then dropBlanks cs else c :: cs

def trim (cs : List Char) : List Char :=
  (dropBlanks (dropBlanks cs).reverse).reverse

end NeuronKernels.BlankCharacters
