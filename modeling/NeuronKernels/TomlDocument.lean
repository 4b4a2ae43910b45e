import NeuronKernels.BinaryFloat
import NeuronKernels.TextPieces

/-!
# TOML documents

A document is read line by line into a tree of tables. How a table came to be decides what may still
be added to it: one with a header of its own is closed to dotted keys and to a second header, one
that a longer header implied can still get its own, one that dotted keys made can only get more of
them, and one between braces is finished at once. Every fault, wherever it is, spoils the whole
document. Of points in time and of fractional numbers only the form is kept.
-/

namespace NeuronKernels.TomlDocument
open TextPieces

/-- How a table came to be. -/
inductive Form
  | header
  | implied
  | dotted
  | inline
  deriving DecidableEq

inductive Node
  | text (s : String)
  | integer (n : Int)
  | float
  | boolean (b : Bool)
  | dateTime
  | array (items : List Node)
  | table (form : Form) (entries : List (String × Node))
  | tables (items : List (List (String × Node)))

abbrev Entries := List (String × Node)

/-- A reader gives a value and the text after it, or nothing for a fault. -/
abbrev Reader (α : Type) := List Char → Option (α × List Char)

/-- Blanks within a line. -/
def isBlank (c : Char) : Bool := c == ' ' || c == '\t'

def skipBlanks (cs : List Char) : List Char := cs.dropWhile isBlank

/-- The characters that may stand in comments: the tab and all but the control characters. -/
def isPrintable (c : Char) : Bool :=
  c == '\t' || (0x20 ≤ c.toNat && c.toNat ≤ 0x7e) || 0x80 ≤ c.toNat

def skipComment : List Char → List Char
  | [] => []
  | c :: cs => if c = '#' then cs.dropWhile isPrintable else c :: cs

/-- The text after a line break of either kind. -/
def lineBreak : List Char → Option (List Char)
  | '\n' :: cs => some cs
  | '\r' :: '\n' :: cs => some cs
  | _ => none

/-- What may follow a value or header on its line. -/
def lineEnd (cs : List Char) : Option (List Char) :=
  match skipComment (skipBlanks cs) with
  | [] => some []
  | rest => lineBreak rest

/-- Skips blanks, comments and line breaks; `fuel` bounds the number of lines. -/
def skipLines : (fuel : Nat) → List Char → List Char
  | 0, cs => cs
  | fuel + 1, cs =>
    let rest := skipComment (skipBlanks cs)
    match lineBreak rest with
    | some more => skipLines fuel more
    | none => rest

def skipAll (cs : List Char) : List Char := skipLines (cs.length + 1) cs

/-- A character given by that many hexadecimal digits; `n` is the number read so far. -/
def numberedChar : (digits n : Nat) → Reader Char
  | 0, n, cs => if h : n.isValidChar then some (Char.ofNatAux n h, cs) else none
  | _ + 1, _, [] => none
  | digits + 1, n, c :: cs =>
    match hexValue c with
    | none => none
    | some d => numberedChar digits (n * 16 + d) cs

def escaped : Reader Char
  | [] => none
  | c :: cs =>
    if c = '"' ∨ c = '\\' then some (c, cs)
    else if c = 'b' then some (Char.ofNat 8, cs)
    else if c = 't' then some ('\t', cs)
    else if c = 'n' then some ('\n', cs)
    else if c = 'f' then some (Char.ofNat 12, cs)
    else if c = 'r' then some ('\r', cs)
    else if c = 'u' then numberedChar 4 0 cs
    else if c = 'U' then numberedChar 8 0 cs
    else none

def startsTriple (mark : Char) (cs : List Char) : Bool := [mark, mark, mark].isPrefixOf cs

/-- A string on one line, after its opening mark; `out` holds what was read, last one first. -/
def lineString (mark : Char) (escapes : Bool) : (fuel : Nat) → (out : List Char) → Reader String
  | 0, _, _ => none
  | _ + 1, _, [] => none
  | fuel + 1, out, c :: cs =>
    if c = mark then some (String.ofList out.reverse, cs)
    else if c = '\\' ∧ escapes then
      match escaped cs with
      | none => none
      | some (d, rest) => lineString mark escapes fuel (d :: out) rest
    else if isPrintable c then lineString mark escapes fuel (c :: out) cs
    else none

/-- The text after the blanks and line breaks that a backslash at the end of a line removes; `none`
when something else follows on the line. -/
def continuation (cs : List Char) : Option (List Char) :=
  match lineBreak (skipBlanks cs) with
  | none => none
  | some rest => some (drop (rest.length + 1) rest)
where
  /-- Drops blanks and line breaks. -/
  drop : (fuel : Nat) → List Char → List Char
    | 0, cs => cs
    | fuel + 1, cs =>
      match lineBreak (skipBlanks cs) with
      | some rest => drop fuel rest
      | none => skipBlanks cs

/-- A string over several lines, after its opening marks. The string ends with three marks; up to
two more may stand before them. -/
def linesString (mark : Char) (escapes : Bool) : (fuel : Nat) → (out : List Char) → Reader String
  | 0, _, _ => none
  | _ + 1, _, [] => none
  | fuel + 1, out, c :: cs =>
    if c = mark then
      let run := (c :: cs).takeWhile (· == mark)
      if run.length < 3 then linesString mark escapes fuel (c :: out) cs
      else if 5 < run.length then none
      else
        some (String.ofList (out.reverse ++ run.drop 3), (c :: cs).drop run.length)
    else if c = '\\' ∧ escapes then
      match continuation cs with
      | some rest => linesString mark escapes fuel out rest
      | none =>
        match escaped cs with
        | none => none
        | some (d, rest) => linesString mark escapes fuel (d :: out) rest
    else
      match lineBreak (c :: cs) with
      | some rest => linesString mark escapes fuel ('\n' :: out) rest
      | none => if isPrintable c then linesString mark escapes fuel (c :: out) cs else none

def withoutBreak (cs : List Char) : List Char := (lineBreak cs).getD cs

/-- A string of any kind; `mark` is its first character and `cs` starts with it. -/
def string (mark : Char) (cs : List Char) : Option (String × List Char) :=
  let escapes := mark == '"'
  if startsTriple mark cs then
    let body := withoutBreak (cs.drop 3)
    linesString mark escapes (body.length + 1) [] body
  else lineString mark escapes (cs.length + 1) [] (cs.drop 1)

def isBareChar (c : Char) : Bool := isAsciiLetter c || isDigit c || c == '_' || c == '-'

def simpleKey : Reader String
  | [] => none
  | c :: cs =>
    if c = '"' ∨ c = '\'' then lineString c (c == '"') (cs.length + 1) [] cs
    else
      let bare := (c :: cs).takeWhile isBareChar
      if bare.isEmpty then none else some (String.ofList bare, (c :: cs).dropWhile isBareChar)

/-- The parts of a key with points between them; blanks may stand around each part. -/
def keyParts : (fuel : Nat) → Reader (List String)
  | 0, _ => none
  | fuel + 1, cs =>
    match simpleKey (skipBlanks cs) with
    | none => none
    | some (part, rest) =>
      match skipBlanks rest with
      | '.' :: more => (keyParts fuel more).map fun r => (part :: r.1, r.2)
      | more => some ([part], more)

/-- The greatest depth of arrays, tables between braces and keys. -/
def depthLimit : Nat := 79

def key (cs : List Char) : Option (List String × List Char) :=
  match keyParts (cs.length + 1) cs with
  | none => none
  | some (parts, rest) => if parts.length ≤ depthLimit then some (parts, rest) else none

/-- Digits of some kind, single underscores between them left out. -/
def digitRun (isOk : Char → Bool) : List Char → Option (List Char × List Char)
  | [] => none
  | c :: cs => if isOk c then more [c] cs else none
where
  /-- The digits after those in `out`, which holds the last one first. -/
  more (out : List Char) : List Char → Option (List Char × List Char)
    | [] => some (out.reverse, [])
    | [c] =>
      if isOk c then some ((c :: out).reverse, [])
      else if c = '_' then none
      else some (out.reverse, [c])
    | c :: d :: cs =>
      if isOk c then more (c :: out) (d :: cs)
      else if c = '_' then if isOk d then more (d :: out) cs else none
      else some (out.reverse, c :: d :: cs)

def sign : List Char → Bool × List Char
  | '-' :: cs => (true, cs)
  | '+' :: cs => (false, cs)
  | cs => (false, cs)

/-- The digits of a decimal number: a zero alone, or a run that starts with another digit. -/
def decimalDigits : List Char → Option (List Char × List Char)
  | [] => none
  | c :: cs => if c = '0' then some (['0'], cs) else digitRun isDigit (c :: cs)

def integerNode (negative : Bool) (n : Nat) : Option Node :=
  if negative then if n ≤ signedLimit then some (.integer (-n)) else none
  else if n < signedLimit then some (.integer n) else none

def basedNumber (base : Nat) (cs : List Char) : Option (Node × List Char) :=
  let isOk := fun c => match hexValue c with
    | some d => d < base
    | none => false
  match digitRun isOk cs with
  | none => none
  | some (ds, rest) =>
    let n := ds.foldl (fun n c => n * base + (hexValue c).getD 0) 0
    (integerNode false n).map (·, rest)

/-- The base that the second character of a number names. -/
def baseOf (c : Char) : Option Nat :=
  if c = 'x' then some 16 else if c = 'o' then some 8 else if c = 'b' then some 2 else none

def exponentPart : List Char → Option (Option Int × List Char)
  | [] => some (none, [])
  | c :: cs =>
    if c = 'e' ∨ c = 'E' then
      let (down, body) := sign cs
      (digitRun isDigit body).map fun r =>
        let n : Int := (digitsFrom 0 r.1 : Nat)
        (some (if down then -n else n), r.2)
    else some (none, c :: cs)

def fractionPart : List Char → Option (Option (List Char) × List Char)
  | [] => some (none, [])
  | c :: cs =>
    if c = '.' then (digitRun isDigit cs).map fun r => (some r.1, r.2) else some (none, c :: cs)

/-- Fractional numbers may be too small, but not too large, for 64 bits. -/
def floatNode (negative : Bool) (digits : List Char) (exponent : Int) : Option Node :=
  let v : BinaryFloat.Value .double := .ofDecimal negative (digitsFrom 0 digits) exponent
  if v = .infinity false then none else some .float

def word (w : String) (node : Node) (cs : List Char) : Option (Node × List Char) :=
  (stripStart w.toList cs).map (node, ·)

def decimalNumber (cs : List Char) : Option (Node × List Char) :=
  let (negative, body) := sign cs
  match decimalDigits body with
  | none => (word "inf" .float body).or (word "nan" .float body)
  | some (whole, rest) =>
    match fractionPart rest with
    | none => none
    | some (fraction, rest) =>
      match exponentPart rest with
      | none => none
      | some (exponent, rest) =>
        if fraction.isNone && exponent.isNone then
          (integerNode negative (digitsFrom 0 whole)).map (·, rest)
        else
          let places := fraction.getD []
          (floatNode negative (whole ++ places) (exponent.getD 0 - places.length)).map (·, rest)

/-- A number of so many digits within bounds. -/
def fixedDigits (count low high : Nat) (cs : List Char) : Option (Nat × List Char) :=
  let ds := cs.take count
  let n := digitsFrom 0 ds
  if ds.length = count ∧ ds.all isDigit ∧ low ≤ n ∧ n ≤ high then some (n, cs.drop count) else none

def expect (c : Char) : List Char → Option (List Char)
  | [] => none
  | d :: cs => if c = d then some cs else none

def daysIn (year month : Nat) : Nat :=
  if month = 2 then
    if year % 4 = 0 ∧ (year % 100 ≠ 0 ∨ year % 400 = 0) then 29 else 28
  else if month = 4 ∨ month = 6 ∨ month = 9 ∨ month = 11 then 30
  else 31

def date (cs : List Char) : Option (List Char) := do
  let (year, cs) ← fixedDigits 4 0 9999 cs
  let cs ← expect '-' cs
  let (month, cs) ← fixedDigits 2 1 12 cs
  let cs ← expect '-' cs
  let (_, cs) ← fixedDigits 2 1 (daysIn year month) cs
  return cs

def secondFraction : List Char → Option (List Char)
  | [] => some []
  | c :: cs =>
    if c = '.' then
      if (cs.takeWhile isDigit).isEmpty then none else some (cs.dropWhile isDigit)
    else some (c :: cs)

def time (cs : List Char) : Option (List Char) := do
  let (_, cs) ← fixedDigits 2 0 23 cs
  let cs ← expect ':' cs
  let (_, cs) ← fixedDigits 2 0 59 cs
  let cs ← expect ':' cs
  let (_, cs) ← fixedDigits 2 0 60 cs
  secondFraction cs

def offset : List Char → Option (List Char)
  | [] => some []
  | c :: cs =>
    if c = 'Z' ∨ c = 'z' then some cs
    else if c = '+' ∨ c = '-' then do
      let (_, cs) ← fixedDigits 2 0 23 cs
      let cs ← expect ':' cs
      let (_, cs) ← fixedDigits 2 0 59 cs
      return cs
    else some (c :: cs)

/-- Whether so many digits and then a mark come first. -/
def startsDigits (count : Nat) (mark : Char) (cs : List Char) : Bool :=
  let ds := cs.take count
  ds.length == count && ds.all isDigit && (cs.drop count).head? == some mark

def dateAndTime (cs : List Char) : Option (Node × List Char) :=
  match date cs with
  | none => none
  | some [] => some (.dateTime, [])
  | some (c :: rest) =>
    if (c = 'T' ∨ c = 't' ∨ c = ' ') ∧ startsDigits 2 ':' rest then
      ((time rest).bind offset).map (.dateTime, ·)
    else some (.dateTime, c :: rest)

def numberOrTime (cs : List Char) : Option (Node × List Char) :=
  if startsDigits 4 '-' cs then dateAndTime cs
  else if startsDigits 2 ':' cs then (time cs).map (.dateTime, ·)
  else
    match cs with
    | '0' :: c :: rest =>
      match baseOf c with
      | some base => basedNumber base rest
      | none => decimalNumber cs
    | _ => decimalNumber cs

def find (name : String) : Entries → Option Node
  | [] => none
  | entry :: rest => if entry.1 = name then some entry.2 else find name rest

/-- The entries with another value under a key that is there. -/
def replace (name : String) (node : Node) : Entries → Entries
  | [] => []
  | entry :: rest =>
    if entry.1 = name then (name, node) :: rest else entry :: replace name node rest

/-- Whether a path may go on into a table of that form. -/
def canEnter (byDots : Bool) : Form → Bool
  | .implied | .dotted => true
  | .header => !byDots
  | .inline => false

/-- The form of a table that a path makes on its way. -/
def madeForm (byDots : Bool) : Form := if byDots then .dotted else .implied

/-- Changes the table at the end of a path; tables that are missing on the way are made, and of a
list of tables the last one is meant. -/
def changeAt (byDots : Bool) (change : Form → Entries → Option Entries) :
    List String → Form → Entries → Option Entries
  | [], form, entries => change form entries
  | name :: path, _, entries =>
    match find name entries with
    | none =>
      (changeAt byDots change path (madeForm byDots) []).map fun inner =>
        entries ++ [(name, .table (madeForm byDots) inner)]
    | some (.table form inner) =>
      if canEnter byDots form then
        (changeAt byDots change path form inner).map fun inner =>
          replace name (.table form inner) entries
      else none
    | some (.tables items) =>
      match items.getLast? with
      | none => none
      | some last =>
        (changeAt byDots change path .header last).map fun inner =>
          replace name (.tables (items.dropLast ++ [inner])) entries
    | some _ => none

/-- Adds a new key. Only a table that dotted keys made can get one through a dotted key. -/
def addNew (dottedPath : Bool) (name : String) (node : Node) (form : Form) (entries : Entries) :
    Option Entries :=
  if (form == .dotted) = dottedPath ∧ (find name entries).isNone then
    some (entries ++ [(name, node)])
  else none

def addDotted (path : List String) (node : Node) (form : Form) (entries : Entries) :
    Option Entries :=
  match path.getLast? with
  | none => none
  | some name =>
    let parents := path.dropLast
    changeAt true (addNew (!parents.isEmpty) name node) parents form entries

def openTable (name : String) (_ : Form) (entries : Entries) : Option Entries :=
  match find name entries with
  | none => some (entries ++ [(name, .table .header [])])
  | some (.table .implied inner) => some (replace name (.table .header inner) entries)
  | some _ => none

def openListed (name : String) (_ : Form) (entries : Entries) : Option Entries :=
  match find name entries with
  | none => some (entries ++ [(name, .tables [[]])])
  | some (.tables items) => some (replace name (.tables (items ++ [[]])) entries)
  | some _ => none

def openAt (listed : Bool) (path : List String) (root : Entries) : Option Entries :=
  match path.getLast? with
  | none => none
  | some name =>
    changeAt false (if listed then openListed name else openTable name) path.dropLast .header root

/-- Adds the value of a dotted key to the table of a header. -/
def addAt (header path : List String) (node : Node) (root : Entries) : Option Entries :=
  changeAt false (addDotted path node) header .header root

/-- The items of an array after its opening bracket; `out` holds those so far, last one first. -/
def arrayItems (item : Reader Node) : (fuel : Nat) → (out : List Node) → Reader Node
  | 0, _, _ => none
  | fuel + 1, out, cs =>
    match skipAll cs with
    | [] => none
    | c :: rest =>
      if c = ']' then some (.array out.reverse, rest)
      else
        match item (c :: rest) with
        | none => none
        | some (node, rest) =>
          match skipAll rest with
          | ',' :: more => arrayItems item fuel (node :: out) more
          | ']' :: more => some (.array (node :: out).reverse, more)
          | _ => none

def keyValue (item : Reader Node) (cs : List Char) : Option ((List String × Node) × List Char) := do
  let (path, cs) ← key cs
  let cs ← expect '=' cs
  let (node, cs) ← item (skipBlanks cs)
  return ((path, node), cs)

def closeBrace : Char := Char.ofNat 0x7d

/-- The entries of a table between braces, of which at least one must follow. -/
def inlineItems (item : Reader Node) : (fuel : Nat) → Entries → Reader Node
  | 0, _, _ => none
  | fuel + 1, entries, cs =>
    match keyValue item cs with
    | none => none
    | some ((path, node), rest) =>
      match addDotted path node .inline entries with
      | none => none
      | some entries =>
        match skipBlanks rest with
        | [] => none
        | c :: more =>
          if c = ',' then inlineItems item fuel entries more
          else if c = closeBrace then some (.table .inline entries, more)
          else none

def inlineTable (item : Reader Node) (cs : List Char) : Option (Node × List Char) :=
  match skipBlanks cs with
  | [] => none
  | c :: rest =>
    if c = closeBrace then some (.table .inline [], rest)
    else inlineItems item (cs.length + 1) [] cs

def scalar (cs : List Char) : Option (Node × List Char) :=
  match cs with
  | [] => none
  | c :: _ =>
    if c = '"' ∨ c = '\'' then (string c cs).map fun r => (.text r.1, r.2)
    else if c = 't' then word "true" (.boolean true) cs
    else if c = 'f' then word "false" (.boolean false) cs
    else if c = 'i' then word "inf" .float cs
    else if c = 'n' then word "nan" .float cs
    else if c = '+' ∨ c = '-' ∨ isDigit c then numberOrTime cs
    else none

/-- A value with at most so many levels of arrays and tables. -/
def value : (levels : Nat) → Reader Node
  | 0, cs =>
    match cs with
    | [] => none
    | c :: _ => if c = '[' ∨ c.toNat = 0x7b then none else scalar cs
  | levels + 1, cs =>
    match cs with
    | [] => none
    | c :: rest =>
      if c = '[' then arrayItems (value levels) (rest.length + 1) [] rest
      else if c.toNat = 0x7b then inlineTable (value levels) rest
      else scalar cs

/-- A header: whether it is one of a list, its path, and the text after it. -/
def header (cs : List Char) : Option ((Bool × List String) × List Char) :=
  match cs with
  | '[' :: '[' :: rest => do
    let (path, cs) ← key rest
    let cs ← expect ']' cs
    let cs ← expect ']' cs
    return ((true, path), cs)
  | '[' :: rest => do
    let (path, cs) ← key rest
    let cs ← expect ']' cs
    return ((false, path), cs)
  | _ => none

/-- Reads the lines of a document; `current` is the path of the latest header. -/
def lines : (fuel : Nat) → (current : List String) → Entries → List Char → Option Entries
  | 0, _, _, _ => none
  | fuel + 1, current, root, cs =>
    match skipAll cs with
    | [] => some root
    | c :: rest =>
      if c = '[' then
        match header (c :: rest) with
        | none => none
        | some ((listed, path), rest) =>
          match openAt listed path root, lineEnd rest with
          | some root, some rest => lines fuel path root rest
          | _, _ => none
      else
        match keyValue (value depthLimit) (c :: rest) with
        | none => none
        | some ((path, node), rest) =>
          match addAt current path node root, lineEnd rest with
          | some root, some rest => lines fuel current root rest
          | _, _ => none

def withoutMark : List Char → List Char
  | [] => []
  | c :: cs => if c.toNat = 0xfeff then cs else c :: cs

def ofText (text : String) : Option Entries :=
  lines (text.length + 1) [] [] (withoutMark text.toList)

end NeuronKernels.TomlDocument
