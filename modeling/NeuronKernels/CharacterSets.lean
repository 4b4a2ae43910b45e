/-!
# Sets of characters

A set is kept as it was put together: ranges of characters, and the operations on sets over them.
Membership follows that build, so that each operation has its law at once. The sets with a name are
those of ASCII.
-/

namespace NeuronKernels.CharacterSets

inductive CharSet
  | nothing
  | range (first last : Char)
  | union (s t : CharSet)
  | common (s t : CharSet)
  | without (s t : CharSet)
  | either (s t : CharSet)
  | others (s : CharSet)
  | anyCase (s : CharSet)
  deriving DecidableEq

/-- An ASCII letter in its other form; every other character is left alone. -/
def otherCase (c : Char) : Char :=
  let n := c.toNat
  if 65 ≤ n ∧ n ≤ 90 then Char.ofNat (n + 32)
  else if 97 ≤ n ∧ n ≤ 122 then Char.ofNat (n - 32)
  else c

namespace CharSet

/-- Whether a character is in a set. A character is in `either` if it is in one of the two but not
in both, and in `anyCase` if it or its other form is in the set. -/
def has : CharSet → Char → Bool
  | nothing, _ => false
  | range first last, c => first ≤ c && c ≤ last
  | union s t, c => s.has c || t.has c
  | common s t, c => s.has c && t.has c
  | without s t, c => s.has c && !t.has c
  | either s t, c => s.has c ^^ t.has c
  | others s, c => !s.has c
  | anyCase s, c => s.has c || s.has (otherCase c)

def one (c : Char) : CharSet := range c c

def all : CharSet := others nothing

def ofRanges : List (Char × Char) → CharSet
  | [] => nothing
  | r :: rest => union (range r.1 r.2) (ofRanges rest)

def digits : CharSet := range '0' '9'

/-- Characters of words: letters, digits and the low line. -/
def words : CharSet := ofRanges [('0', '9'), ('A', 'Z'), ('_', '_'), ('a', 'z')]

def spaces : CharSet := ofRanges [(Char.ofNat 9, Char.ofNat 13), (' ', ' ')]

def named : List (String × CharSet) :=
  [("alnum", ofRanges [('0', '9'), ('A', 'Z'), ('a', 'z')]),
   ("alpha", ofRanges [('A', 'Z'), ('a', 'z')]),
   ("ascii", range (Char.ofNat 0) (Char.ofNat 0x7f)),
   ("blank", ofRanges [(Char.ofNat 9, Char.ofNat 9), (' ', ' ')]),
   ("cntrl", ofRanges [(Char.ofNat 0, Char.ofNat 0x1f), (Char.ofNat 0x7f, Char.ofNat 0x7f)]),
   ("digit", digits),
   ("graph", range '!' '~'),
   ("lower", range 'a' 'z'),
   ("print", range ' ' '~'),
   ("punct", ofRanges [('!', '/'), (':', '@'), ('[', Char.ofNat 0x60), (Char.ofNat 0x7b, '~')]),
   ("space", spaces),
   ("upper", range 'A' 'Z'),
   ("word", words),
   ("xdigit", ofRanges [('0', '9'), ('A', 'F'), ('a', 'f')])]

def ofName? (name : String) : Option CharSet :=
  (named.find? fun entry => entry.1 == name).map Prod.snd

end CharSet

end NeuronKernels.CharacterSets
