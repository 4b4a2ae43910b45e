import NeuronKernels.CharacterSets

/-!
# Text patterns

A pattern describes pieces of text. Of the pieces that it describes the earliest counts, and of
those that begin at one place the one that the pattern prefers: the left alternative comes first,
and a greedy repetition goes on as long as it can. The match of a text is that one piece.

Matching reads the text once. A position in a pattern is the list of the patterns that are still to
come there, and between two characters there are several of them, in the order of preference.
`enter` collects the positions that are reached without taking a character. None is collected twice,
so that a repetition of nothing comes to an end. A position with nothing to come is the end of a
match, and all positions behind it are given up.
-/

namespace NeuronKernels.TextPattern
open CharacterSets

/-- What can be asked of a place between two characters. -/
inductive Place
  | start
  | stop
  | lineStart
  | lineStop
  | returnedLineStart
  | returnedLineStop
  | wordEdge
  | noWordEdge
  | wordStart
  | wordStop
  deriving DecidableEq

def isWord (c : Option Char) : Bool := c.any CharSet.words.has

/-- Whether a place is as asked, between the characters before and behind it. In the lines that are
called returned, a carriage return, a line feed, or both in this order end a line. -/
def Place.holds (place : Place) (before behind : Option Char) : Bool :=
  match place with
  | start => before.isNone
  | stop => behind.isNone
  | lineStart => before.all (· == '\n')
  | lineStop => behind.all (· == '\n')
  | returnedLineStart => before.all fun c => c == '\n' || (c == '\r' && behind != some '\n')
  | returnedLineStop => behind.all fun c => c == '\r' || (c == '\n' && before != some '\r')
  | wordEdge => isWord before != isWord behind
  | noWordEdge => isWord before == isWord behind
  | wordStart => !isWord before && isWord behind
  | wordStop => isWord before && !isWord behind

/-- Whether the place is known to be as asked from the character before it alone. -/
def Place.isKnown (place : Place) (before : Option Char) : Bool :=
  match place with
  | start => before.isNone
  | lineStart | returnedLineStart => before.all (· == '\n')
  | _ => false

/-- A pattern. `many` describes one piece or more in a row, and `further` what may follow after one
of them: more pieces, or none. -/
inductive Pattern
  | empty
  | one (set : CharSet)
  | between (place : Place)
  | seq (p q : Pattern)
  | alt (p q : Pattern)
  | many (greedy : Bool) (p : Pattern)
  | further (greedy : Bool) (p : Pattern)
  deriving DecidableEq

/-- A position in a pattern: what is still to come. -/
abbrev Position := List Pattern

namespace Pattern

def optional (greedy : Bool) (p : Pattern) : Pattern := if greedy then alt p empty else alt empty p

/-- Whether every piece that a pattern describes has a character. -/
def takesSome : Pattern → Bool
  | empty | between _ => false
  | one _ => true
  | seq p q => p.takesSome || q.takesSome
  | alt p q => p.takesSome && q.takesSome
  | many _ p => p.takesSome
  | further _ _ => false

/-- Whether no piece that a pattern describes has a character. -/
def takesNothing : Pattern → Bool
  | empty | between _ => true
  | one _ => false
  | seq p q | alt p q => p.takesNothing && q.takesNothing
  | many _ p | further _ p => p.takesNothing

/-- One piece or more in a row. Nothing is not repeated. -/
def oneOrMore (greedy : Bool) (p : Pattern) : Pattern := if p.takesNothing then p else many greedy p

def anyNumber (greedy : Bool) (p : Pattern) : Pattern :=
  if p.takesSome then further greedy p else optional greedy (oneOrMore greedy p)

def sequence (ps : List Pattern) : Pattern := ps.foldr seq empty

/-- One of the patterns, the first one preferred. -/
def choice : List Pattern → Pattern
  | [] => empty
  | [p] => p
  | p :: q :: ps => alt p (choice (q :: ps))

/-- Goes on from a position that has not been collected yet. -/
def visit (position : Position) (onward : List Position → List Position) (seen : List Position) :
    List Position :=
  if seen.contains position then seen else onward (seen ++ [position])

/-- Collects the positions that are reached from a pattern without taking a character. What comes
behind the pattern is `rest`, and `onward` collects from there. At the end of a body that is
repeated the position of the repetition has been collected before, so that nothing is left to do. -/
def enter (holds : Place → Bool) :
    Pattern → (rest : Position) → (onward : List Position → List Position) →
      List Position → List Position
  | empty, _, onward, seen => onward seen
  | one set, rest, _, seen => visit (one set :: rest) id seen
  | between place, rest, onward, seen =>
    visit (between place :: rest) (if holds place then onward else id) seen
  | seq p q, rest, onward, seen => enter holds p (q :: rest) (enter holds q rest onward) seen
  | alt p q, rest, onward, seen =>
    visit (alt p q :: rest) (fun seen =>
      enter holds q rest onward (enter holds p rest onward seen)) seen
  | many greedy p, rest, onward, seen =>
    let again := further greedy p :: rest
    let body := enter holds p again id
    enter holds p again (visit again fun seen =>
      if greedy then onward (body seen) else body (onward seen)) seen
  | further greedy p, rest, onward, seen =>
    let again := further greedy p :: rest
    let body := enter holds p again id
    visit again (fun seen => if greedy then onward (body seen) else body (onward seen)) seen

def enterAll (holds : Place → Bool) : Position → List Position → List Position
  | [], seen => visit [] id seen
  | p :: rest, seen => enter holds p rest (enterAll holds rest) seen

/-- Whether a position waits for a character or for what is said of its place, or is the end. -/
def isWaiting : Position → Bool
  | alt _ _ :: _ => false
  | further _ _ :: _ => false
  | _ => true

/-- Whether a position asks for something that holds now and was not known before. -/
def isReleased (before behind : Option Char) : Position → Bool
  | between place :: _ => place.holds before behind && !place.isKnown before
  | _ => false

/-- The positions with those that the character behind the place releases. -/
def released (before behind : Option Char) (positions : List Position) : List Position :=
  if positions.any (isReleased before behind) then
    (positions.foldl (fun seen position =>
      enterAll (fun place => place.holds before behind) position seen) []).filter isWaiting
  else positions

def take (c : Char) (seen : List Position) : Position → List Position
  | one set :: rest =>
    if set.has c then enterAll (fun place => place.isKnown (some c)) rest seen else seen
  | _ => seen

/-- Whether from the positions, of which the first one that comes to its end counts, the end of the
text is reached. -/
def endsAtEnd (before : Option Char) (positions : List Position) : List Char → Bool
  | [] => (released before none positions).contains []
  | c :: cs =>
    let going := (released before (some c) positions).takeWhile (· != [])
    endsAtEnd (some c) ((going.foldl (take c) []).filter isWaiting) cs

/-- The positions before the first character: as little text as possible stands before the match. -/
def starts (p : Pattern) : List Position :=
  (enterAll (fun place => place.isKnown none) [further false (one CharSet.all), p] []).filter
    isWaiting

def matchesToEnd (p : Pattern) (text : String) : Bool :=
  endsAtEnd none p.starts text.toList

end Pattern

end NeuronKernels.TextPattern
