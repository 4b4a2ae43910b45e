/-!
# Ranges of characters

A class of characters as a list of ranges of code points, each with its first and its last member.
The lists of this library are in ascending order and leave a gap between neighbours, so that every
class has one list.
-/

namespace NeuronKernels.CharacterRanges

def liesIn (ranges : List (Nat × Nat)) (n : Nat) : Bool :=
  ranges.any fun r => r.1 ≤ n && n ≤ r.2

end NeuronKernels.CharacterRanges
