import NeuronKernels.AlphanumericCharacters
import NeuronKernels.BlankCharacters
import NeuronKernels.TextPattern
import NeuronKernels.TextPieces

/-!
# Written patterns

In the written form of a pattern a character stands for itself unless it is a mark. `*`, `+` and `?`
say how often the part before them occurs, and one more `?` makes them lazy; `|` separates branches,
parentheses hold groups, brackets hold sets of characters, `.` is any character of a line, `^` and
`$` are the ends, and a backslash takes a mark as it is or names a character, a set or a place.

Letters behind `(?` change how the text is meant, up to the end of the group. Sets, forms of
letters and edges of words are known for ASCII only: while patterns are about all characters, which
they are at first, the sets with a letter and the neglect of letter forms are refused, and a pattern
that asks for the edge of a word cannot be used.
-/

namespace NeuronKernels.PatternReading
open AlphanumericCharacters BlankCharacters CharacterSets TextPattern TextPieces

inductive PatternFault
  | malformed
  | edgeOfWords
  deriving DecidableEq

def PatternFault.message : PatternFault → String
  | .malformed => "error building NFA"
  | .edgeOfWords =>
    "unsupported regex feature for DFAs: cannot build DFAs for regexes with Unicode word " ++
      "boundaries; switch to ASCII word boundaries, or heuristically enable Unicode word " ++
      "boundaries or use a different regex engine"

/-- How the text of a pattern is meant: whether letters stand for both of their forms, `^` and `$`
for the ends of lines, and `.` for line ends too; whether repetitions are lazy without a mark;
whether patterns are about all characters and not only about those of ASCII; whether carriage
returns end lines; and whether blanks and comments are passed over. -/
structure Settings where
  anyCase : Bool
  lines : Bool
  allChars : Bool
  swapped : Bool
  wide : Bool
  returns : Bool
  spaced : Bool

def Settings.initial : Settings := ⟨false, false, false, false, true, false, false⟩

def Settings.put? (s : Settings) (letter : Char) (on : Bool) : Option Settings :=
  match letter with
  | 'i' => some { s with anyCase := on }
  | 'm' => some { s with lines := on }
  | 's' => some { s with allChars := on }
  | 'U' => some { s with swapped := on }
  | 'u' => some { s with wide := on }
  | 'R' => some { s with returns := on }
  | 'x' => some { s with spaced := on }
  | _ => none

/-- What letters of settings say: the settings, whether there were letters, the mark that ends them,
and the text behind it. -/
structure SettingsRead where
  settings : Settings
  isEmpty : Bool
  mark : Char
  rest : List Char

/-- Reads letters of settings up to a closing parenthesis or a colon. Those behind a dash are turned
off. No letter may occur twice, and neither may the dash, which must not be the last one. -/
def readSettings (seen : List Char) (on : Bool) (s : Settings) : List Char → Option SettingsRead
  | [] => none
  | c :: cs =>
    if c == ')' || c == ':' then
      if seen.head? == some '-' then none else some ⟨s, seen.isEmpty, c, cs⟩
    else if seen.contains c then none
    else if c == '-' then readSettings (c :: seen) false s cs
    else
      match s.put? c on with
      | none => none
      | some s => readSettings (c :: seen) on s cs

/-- The text behind blanks and comments. A comment goes from a number sign to the end of a line. -/
def dropComments : (inside : Bool) → List Char → List Char
  | _, [] => []
  | true, c :: cs => dropComments (c != '\n') cs
  | false, c :: cs =>
    if isBlank c then dropComments false cs
    else if c == '#' then dropComments true cs
    else c :: cs

def skip (s : Settings) (cs : List Char) : List Char :=
  if s.spaced then dropComments false cs else cs

/-- The first character that is not blank, where one number sign is passed over too. -/
def firstVisible : (sawSign : Bool) → List Char → Option Char
  | _, [] => none
  | sawSign, c :: cs =>
    if isBlank c then firstVisible sawSign cs
    else if c == '#' && !sawSign then firstVisible true cs
    else some c

/-- The character that tells what a dash in a set means, from the text behind the dash. -/
def tellsDash (s : Settings) (cs : List Char) : Option Char :=
  if s.spaced then (firstVisible false cs).or cs.head? else cs.head?

/-- What a single sign stands for. A literal is `short` if it was given by two digits. -/
inductive Sign
  | literal (c : Char) (short : Bool)
  | set (chars : CharSet)
  | place (place : Place)

/-- The number that as many hexadecimal digits denote, continuing from `n`. -/
def readHex (s : Settings) : (count n : Nat) → List Char → Option (Nat × List Char)
  | 0, n, cs => some (n, cs)
  | count + 1, n, cs =>
    match skip s cs with
    | [] => none
    | c :: cs =>
      match hexValue c with
      | none => none
      | some d => readHex s count (16 * n + d) cs

def numbered (s : Settings) (count : Nat) (cs : List Char) : Option (Sign × List Char) :=
  (readHex s count 0 cs).bind fun (n, rest) =>
    if n.isValidChar then some (.literal (Char.ofNat n) (count == 2), rest) else none

def namedChar (c : Char) : Option Char :=
  match c with
  | 'a' => some (Char.ofNat 7)
  | 't' => some '\t'
  | 'n' => some '\n'
  | 'v' => some (Char.ofNat 11)
  | 'f' => some (Char.ofNat 12)
  | 'r' => some '\r'
  | _ => none

def namedPlace (c : Char) : Option Place :=
  match c with
  | 'A' => some .start
  | 'z' => some .stop
  | 'b' => some .wordEdge
  | 'B' => some .noWordEdge
  | '<' => some .wordStart
  | '>' => some .wordStop
  | _ => none

def namedSet (c : Char) : Option CharSet :=
  match c with
  | 'd' => some CharSet.digits
  | 's' => some CharSet.spaces
  | 'w' => some CharSet.words
  | _ => none

/-- How many digits belong to a letter that gives a character by its number. -/
def digitCount (c : Char) : Option Nat :=
  match c with
  | 'x' => some 2
  | 'u' => some 4
  | 'U' => some 8
  | _ => none

/-- Whether a backslash before a character takes it as it is. -/
def isLiteralMark (c : Char) : Bool :=
  c.toNat < 0x80 && !isDigit c && !isAsciiLetter c && c != '<' && c != '>'

def readEscape (s : Settings) : List Char → Option (Sign × List Char)
  | [] => none
  | c :: cs =>
    match digitCount c, namedSet c, namedPlace c, namedChar c with
    | some count, _, _, _ => numbered s count cs
    | _, some set, _, _ => if s.wide then none else some (.set set, cs)
    | _, _, some place, _ => some (.place place, cs)
    | _, _, _, some d => some (.literal d false, cs)
    | _, _, _, _ => if isLiteralMark c then some (.literal c false, cs) else none

/-- The set of a range in the pattern's sense of letters. -/
def rangeSet (s : Settings) (first last : Char) : Option CharSet :=
  if !s.anyCase then some (.range first last)
  else if s.wide then none
  else some (.anyCase (.range first last))

/-- How deep the parts of a pattern may be nested. -/
def depthLimit : Nat := 250

/-- The depth of what holds parts of these depths. -/
def depthOver (depths : List Nat) : Nat := depths.foldl max 0 + 1

structure Member where
  set : CharSet
  depth : Nat

inductive Operation
  | common
  | without
  | either

/-- The operation that a doubled character stands for. -/
def Operation.ofMark? (c : Char) : Option Operation :=
  match c with
  | '&' => some .common
  | '-' => some .without
  | '~' => some .either
  | _ => none

def Operation.apply : Operation → CharSet → CharSet → CharSet
  | common => .common
  | without => .without
  | either => .either

/-- A set in brackets that is being read: whether it is the other characters that are meant, what
stands before an operation, and the members behind it with the last one first. -/
structure OpenSet where
  isNegated : Bool
  left : Option (Operation × Member)
  members : List Member

def joined : List Member → Member
  | [] => ⟨.nothing, 0⟩
  | [m] => m
  | ms => ⟨ms.foldl (fun set m => .union m.set set) .nothing, depthOver (ms.map Member.depth)⟩

namespace OpenSet

def add (o : OpenSet) (m : Member) : OpenSet := { o with members := m :: o.members }

def whole (o : OpenSet) : Member :=
  let right := joined o.members
  match o.left with
  | none => right
  | some (operation, left) =>
    ⟨operation.apply left.set right.set, depthOver [left.depth, right.depth]⟩

def startOperation (o : OpenSet) (operation : Operation) : OpenSet :=
  ⟨o.isNegated, some (operation, o.whole), []⟩

/-- The member that a finished set is. Its other characters are more than ASCII. -/
def close (s : Settings) (o : OpenSet) : Option Member :=
  let m := o.whole
  if !o.isNegated then some ⟨m.set, m.depth + 1⟩
  else if s.wide then some ⟨.others m.set, m.depth + 1⟩
  else none

end OpenSet

def rangeMember (s : Settings) (first last : Char) : Option Member :=
  if last < first || (!s.wide && 0x80 ≤ last.toNat) then none
  else (rangeSet s first last).map fun set => ⟨set, 0⟩

def Sign.member (s : Settings) : Sign → Option Member
  | literal c _ => rangeMember s c c
  | set chars => some ⟨chars, 0⟩
  | place _ => none

def readSetSign (s : Settings) (c : Char) (cs : List Char) : Option (Sign × List Char) :=
  if c == '\\' then readEscape s cs else some (.literal c false, cs)

def readRange (s : Settings) (c : Char) (cs : List Char) : Option (Member × List Char) :=
  (readSetSign s c cs).bind fun (sign, rest) =>
    match skip s rest with
    | '-' :: rest =>
      if tellsDash s rest == some ']' || tellsDash s rest == some '-' then
        (sign.member s).map (·, '-' :: rest)
      else
        match skip s rest with
        | [] => none
        | d :: rest =>
          match sign, readSetSign s d rest with
          | .literal first _, some (.literal last _, rest) =>
            (rangeMember s first last).map (·, rest)
          | _, _ => none
    | rest => (sign.member s).map (·, rest)

/-- Reads the name of a set in colons, behind its opening bracket. -/
def readNamed (s : Settings) (cs : List Char) : Option (Option Member × List Char) :=
  match cs with
  | ':' :: cs =>
    let (isNegated, cs) := match cs with
      | '^' :: rest => (true, rest)
      | _ => (false, cs)
    match CharSet.ofName? (String.ofList (cs.takeWhile (· != ':'))), cs.dropWhile (· != ':') with
    | some set, ':' :: ']' :: rest =>
      let folded := if !s.anyCase then some set else if s.wide then none else some (.anyCase set)
      some (if !isNegated then folded.map fun set => ⟨set, 0⟩
        else if s.wide then folded.map fun set => ⟨.others set, 0⟩
        else none, rest)
    | _, _ => none
  | _ => none

/-- Whether the set is about the other characters, from the text behind its opening bracket. -/
def readNegation (s : Settings) (cs : List Char) : Bool × List Char :=
  match skip s cs with
  | '^' :: rest => (true, rest)
  | rest => (false, rest)

/-- Reads a set up to its closing bracket. In `leading` place dashes stand for themselves, and so
does a closing bracket that comes first. -/
def readSet (s : Settings) :
    (fuel : Nat) → (leading : Bool) → OpenSet → List Char → Option (Member × List Char)
  | 0, _, _, _ => none
  | fuel + 1, leading, o, cs =>
    match skip s cs with
    | [] => none
    | c :: cs =>
      if leading && (c == '-' || (c == ']' && o.members.isEmpty)) then
        (rangeMember s c c).bind fun m => readSet s fuel (c == '-') (o.add m) cs
      else if c == '[' then
        match readNamed s cs with
        | some (member, rest) => member.bind fun m => readSet s fuel false (o.add m) rest
        | none =>
          let (isNegated, rest) := readNegation s cs
          (readSet s fuel true ⟨isNegated, none, []⟩ rest).bind fun (m, rest) =>
            readSet s fuel false (o.add m) rest
      else if c == ']' then (o.close s).map (·, cs)
      else
        match Operation.ofMark? c, cs with
        | some operation, d :: rest =>
          if d == c then readSet s fuel false (o.startOperation operation) rest
          else (readRange s c cs).bind fun (m, rest) => readSet s fuel false (o.add m) rest
        | _, _ => (readRange s c cs).bind fun (m, rest) => readSet s fuel false (o.add m) rest

/-- A part of a pattern. Only what `canRepeat` may have a mark of repetition behind it. -/
structure Part where
  pattern : Pattern
  depth : Nat
  canRepeat : Bool

/-- A group that is being read: its settings at this place, the parts of its last branch, and the
branches before it. Of both the last one comes first. -/
structure Group where
  settings : Settings
  parts : List Part
  branches : List Part

def branch : List Part → Part
  | [] => ⟨.empty, 0, true⟩
  | [part] => part
  | parts =>
    ⟨Pattern.sequence (parts.reverse.map Part.pattern), depthOver (parts.map Part.depth), true⟩

def Group.whole (g : Group) : Part :=
  match branch g.parts :: g.branches with
  | [part] => part
  | parts =>
    ⟨Pattern.choice (parts.reverse.map Part.pattern), depthOver (parts.map Part.depth), true⟩

/-- A pattern that is being read: the innermost group, the groups around it from the inside out, the
names of groups so far, and whether edges of words among all characters have been asked for. -/
structure Reading where
  group : Group
  outer : List Group
  names : List String
  asksForEdges : Bool

namespace Reading

def initial : Reading := ⟨⟨.initial, [], []⟩, [], [], false⟩

def settings (r : Reading) : Settings := r.group.settings

def add (r : Reading) (part : Part) : Reading :=
  { r with group := { r.group with parts := part :: r.group.parts } }

def startBranch (r : Reading) : Reading :=
  { r with group := ⟨r.settings, [], branch r.group.parts :: r.group.branches⟩ }

/-- The settings from here on to the end of the group. -/
def change (r : Reading) (s : Settings) : Reading :=
  { r with group := { r.group with settings := s } }.add ⟨.empty, 0, false⟩

def enter (r : Reading) (s : Settings) : Reading :=
  { r with group := ⟨s, [], []⟩, outer := r.group :: r.outer }

/-- The end of the innermost group; there must be one. -/
def leave (r : Reading) : Option Reading :=
  match r.outer with
  | [] => none
  | group :: outer =>
    let whole := r.group.whole
    some ({ r with group := group, outer := outer }.add ⟨whole.pattern, whole.depth + 1, true⟩)

def addPlace (r : Reading) (place : Place) : Reading :=
  let isEdge := match place with
    | .wordEdge | .noWordEdge | .wordStart | .wordStop => true
    | _ => false
  { r with asksForEdges := r.asksForEdges || (isEdge && r.settings.wide) }.add
    ⟨.between place, 0, true⟩

def addSign (r : Reading) : Sign → Option Reading
  | .literal c short =>
    if short && !r.settings.wide && 0x80 ≤ c.toNat then none
    else (rangeSet r.settings c c).map fun set => r.add ⟨.one set, 0, true⟩
  | .set set => some (r.add ⟨.one set, 0, true⟩)
  | .place place => some (r.addPlace place)

/-- Any character, but for line ends if settings say so. -/
def addAny (r : Reading) : Option Reading :=
  let s := r.settings
  if !s.wide then none
  else
    let ends := if s.allChars then CharSet.nothing
      else if s.returns then .union (.one '\n') (.one '\r')
      else .one '\n'
    some (r.add ⟨.one (.others ends), 0, true⟩)

def startPlace (s : Settings) : Place :=
  if !s.lines then .start else if s.returns then .returnedLineStart else .lineStart

def stopPlace (s : Settings) : Place :=
  if !s.lines then .stop else if s.returns then .returnedLineStop else .lineStop

def repeated (mark : Char) (greedy : Bool) (p : Pattern) : Pattern :=
  if mark == '?' then .optional greedy p
  else if mark == '*' then .anyNumber greedy p
  else .oneOrMore greedy p

def repeatLast (r : Reading) (mark : Char) (cs : List Char) : Option (Reading × List Char) :=
  match r.group.parts with
  | [] => none
  | part :: parts =>
    if !part.canRepeat then none
    else
      let (isMarked, cs) := match cs with
        | '?' :: rest => (true, rest)
        | _ => (false, cs)
      let pattern := repeated mark (isMarked == r.settings.swapped) part.pattern
      let group := { r.group with parts := ⟨pattern, part.depth + 1, true⟩ :: parts }
      some ({ r with group := group }, cs)

def isGroupName : List Char → Bool
  | [] => false
  | c :: cs =>
    (c == '_' || isAlphabetic c)
      && cs.all fun d => d == '_' || d == '.' || d == '[' || d == ']' || isAlphanumeric d

/-- Reads the name of a group, which must be a new one. -/
def readGroupName (r : Reading) (cs : List Char) : Option (Reading × List Char) :=
  let name := cs.takeWhile (· != '>')
  match cs.dropWhile (· != '>') with
  | [] => none
  | _ :: rest =>
    if !isGroupName name || r.names.contains (String.ofList name) then none
    else some ({ r with names := String.ofList name :: r.names }.enter r.settings, rest)

/-- Reads what stands behind an opening parenthesis, up to the first part of the group. -/
def openGroup (r : Reading) (cs : List Char) : Option (Reading × List Char) :=
  match skip r.settings cs with
  | '?' :: 'P' :: '<' :: rest => r.readGroupName rest
  | '?' :: '<' :: rest => r.readGroupName rest
  | '?' :: rest =>
    (readSettings [] true r.settings rest).bind fun read =>
      if read.mark == ':' then some (r.enter read.settings, read.rest)
      else if read.isEmpty then none
      else some (r.change read.settings, read.rest)
  | rest => some (r.enter r.settings, rest)

def addSet (r : Reading) (cs : List Char) : Option (Reading × List Char) :=
  let s := r.settings
  let (isNegated, rest) := readNegation s cs
  (readSet s (rest.length + 1) true ⟨isNegated, none, []⟩ rest).map fun (m, rest) =>
    (r.add ⟨.one m.set, m.depth, true⟩, rest)

def step (r : Reading) (c : Char) (cs : List Char) : Option (Reading × List Char) :=
  if c == '(' then r.openGroup cs
  else if c == ')' then r.leave.map (·, cs)
  else if c == '|' then some (r.startBranch, cs)
  else if c == '[' then r.addSet cs
  else if c == '*' || c == '+' || c == '?' then r.repeatLast c cs
  else if c == Char.ofNat 0x7b then none
  else if c == '.' then r.addAny.map (·, cs)
  else if c == '^' then some (r.addPlace (startPlace r.settings), cs)
  else if c == '$' then some (r.addPlace (stopPlace r.settings), cs)
  else if c == '\\' then
    (readEscape r.settings cs).bind fun (sign, rest) => (r.addSign sign).map (·, rest)
  else (r.addSign (.literal c false)).map (·, cs)

/-- Reads the whole text; every step takes a character at least. -/
def run : (fuel : Nat) → Reading → List Char → Option Reading
  | 0, _, _ => none
  | fuel + 1, r, cs =>
    match skip r.settings cs with
    | [] => some r
    | c :: cs => (r.step c cs).bind fun (r, rest) => run fuel r rest

end Reading

/-- The pattern of a text. Counted repetitions, whose braces no text of a filter can close, are not
among them. -/
def readPattern (text : String) : Except PatternFault Pattern :=
  match Reading.initial.run (text.length + 1) text.toList with
  | none => .error .malformed
  | some r =>
    let whole := r.group.whole
    if !r.outer.isEmpty || depthLimit < whole.depth then .error .malformed
    else if r.asksForEdges then .error .edgeOfWords
    else .ok whole.pattern

end NeuronKernels.PatternReading
