import NeuronKernels.DecimalText
import NeuronKernels.QuotedText

/-!
# Reading typed values from JSON text

A reader takes the text in one pass, from left to right, and says what it expects at each place, so
the first problem is the one reported: a wrong type early in the text wins over a broken bracket
later, and a missing field is noticed where its object closes. A record may be written as an object
or as a list of its fields in order.

Numbers with a fraction or an exponent are read in the quick way: as many digits as fit 64 bits are
collected into a whole number, which is then multiplied or divided by a power of ten. The result can
therefore lie a little beside the nearest value. Whole numbers of 64 bits are read exactly.
-/

namespace NeuronKernels.JsonReading
open BinaryFloat TextPieces

inductive Found
  | boolean (b : Bool)
  | integer (n : Int)
  | float (v : Value .double)
  | text (s : String)
  | null
  | map
  | sequence
  deriving DecidableEq

inductive Problem
  | syntaxError
  | missingField (name : String)
  | duplicateField (name : String)
  | invalidType (found : Found) (expected : String)
  | invalidValue (found : Found) (expected : String)
  | invalidLength (length : Nat) (expected : String)
  deriving DecidableEq

def Found.words : Found → String
  | .boolean b => "boolean `" ++ (if b then "true" else "false") ++ "`"
  | .integer n => "integer `" ++ toString n ++ "`"
  | .float v => "floating point `" ++ DecimalText.compactText v ++ "`"
  | .text s => "string " ++ QuotedText.quoted s
  | .null => "null"
  | .map => "map"
  | .sequence => "sequence"

def Problem.message : Problem → String
  | .syntaxError => "syntax error"
  | .missingField name => "missing field `" ++ name ++ "`"
  | .duplicateField name => "duplicate field `" ++ name ++ "`"
  | .invalidType found expected => "invalid type: " ++ found.words ++ ", expected " ++ expected
  | .invalidValue found expected => "invalid value: " ++ found.words ++ ", expected " ++ expected
  | .invalidLength n expected => "invalid length " ++ toString n ++ ", expected " ++ expected

/-- A reader gives a value and the text after it. -/
abbrev Reader (α : Type) := List Char → Except Problem (α × List Char)

def skipSpace : List Char → List Char
  | [] => []
  | c :: cs => if c = ' ' ∨ c = '\n' ∨ c = '\t' ∨ c = '\r' then skipSpace cs else c :: cs

/-- The character that a letter after a backslash stands for. -/
def escapedChar (c : Char) : Option Char :=
  if c = '"' ∨ c = '\\' ∨ c = '/' then some c
  else if c = 'b' then some (Char.ofNat 8)
  else if c = 'f' then some (Char.ofNat 12)
  else if c = 'n' then some '\n'
  else if c = 'r' then some '\r'
  else if c = 't' then some '\t'
  else none

/-- Where a reader stands inside a string. `high` is the first half of a pair of numbers that
together name one character. -/
inductive InText
  | plain
  | escape
  | number (left value : Nat) (high : Option Nat)
  | pairMark (high : Nat)
  | pairLetter (high : Nat)

/-- The next place after a number of four digits, and the character it completes. -/
def afterNumber (n : Nat) : Option Nat → Option (InText × Option Char)
  | none =>
    if 0xDC00 ≤ n ∧ n ≤ 0xDFFF then none
    else if 0xD800 ≤ n ∧ n ≤ 0xDBFF then some (.pairMark n, none)
    else some (.plain, some (Char.ofNat n))
  | some high =>
    if 0xDC00 ≤ n ∧ n ≤ 0xDFFF then
      some (.plain, some (Char.ofNat ((high - 0xD800) * 0x400 + (n - 0xDC00) + 0x10000)))
    else none

/-- Reads a string up to its closing quote; `out` holds the characters so far, last one first. -/
def readTextFrom : InText → (out : List Char) → Reader (List Char)
  | _, _, [] => .error .syntaxError
  | .plain, out, c :: cs =>
    if c = '"' then .ok (out.reverse, cs)
    else if c = '\\' then readTextFrom .escape out cs
    else if c.toNat < 0x20 then .error .syntaxError
    else readTextFrom .plain (c :: out) cs
  | .escape, out, c :: cs =>
    if c = 'u' then readTextFrom (.number 4 0 none) out cs
    else match escapedChar c with
      | some d => readTextFrom .plain (d :: out) cs
      | none => .error .syntaxError
  | .number left value high, out, c :: cs =>
    match hexValue c with
    | none => .error .syntaxError
    | some d =>
      let value := value * 16 + d
      if left ≤ 1 then
        match afterNumber value high with
        | some (place, some e) => readTextFrom place (e :: out) cs
        | some (place, none) => readTextFrom place out cs
        | none => .error .syntaxError
      else readTextFrom (.number (left - 1) value high) out cs
  | .pairMark high, out, c :: cs =>
    if c = '\\' then readTextFrom (.pairLetter high) out cs else .error .syntaxError
  | .pairLetter high, out, c :: cs =>
    if c = 'u' then readTextFrom (.number 4 0 (some high)) out cs else .error .syntaxError

def readTextBody : Reader String := fun cs =>
  (readTextFrom .plain [] cs).map fun r => (String.ofList r.1, r.2)

/-- Passes over a string; escapes are looked at, but halves of pairs are not matched up. -/
def skipTextFrom : InText → Reader Unit
  | _, [] => .error .syntaxError
  | .escape, c :: cs =>
    if c = 'u' then skipTextFrom (.number 4 0 none) cs
    else if (escapedChar c).isSome then skipTextFrom .plain cs
    else .error .syntaxError
  | .number left value high, c :: cs =>
    if (hexValue c).isNone then .error .syntaxError
    else if left ≤ 1 then skipTextFrom .plain cs
    else skipTextFrom (.number (left - 1) value high) cs
  | _, c :: cs =>
    if c = '"' then .ok ((), cs)
    else if c = '\\' then skipTextFrom .escape cs
    else if c.toNat < 0x20 then .error .syntaxError
    else skipTextFrom .plain cs

/-- A number as the text gives it: whole, negative whole, or rounded. -/
inductive Number
  | natural (n : Nat)
  | negative (n : Nat)
  | float (v : Value .double)

/-- Collects digits while the number fits 64 bits: the number, how many digits were taken, and the
rest, which starts with the digit that did not fit if there is one. -/
def takeDigits (n taken : Nat) : List Char → Nat × Nat × List Char
  | [] => (n, taken, [])
  | c :: cs =>
    if isDigit c ∧ n * 10 + digitValue c < wordLimit then
      takeDigits (n * 10 + digitValue c) (taken + 1) cs
    else (n, taken, c :: cs)

def startsWithDigit : List Char → Bool
  | [] => false
  | c :: _ => isDigit c

def powerOfTen (n : Nat) : Value .double := Value.ofNat (tenTo n)

/-- Scales by a power of ten in steps of at most 308 places; `none` when the result is too large.
Two steps down already turn every 64-bit number into zero, so three are never used up. -/
def scale : (steps : Nat) → Value .double → Int → Option (Value .double)
  | 0, v, _ => some v
  | steps + 1, v, e =>
    if e.natAbs ≤ 308 then
      if 0 ≤ e then
        let r := v.mul (powerOfTen e.natAbs)
        if r.isFinite then some r else none
      else some (v.div (powerOfTen e.natAbs))
    else if v = Value.zero then some v
    else if 0 ≤ e then none
    else scale steps (v.div (powerOfTen 308)) (e + 308)

def floatOfParts (negative : Bool) (m : Nat) (e : Int) : Except Problem Number :=
  match scale 4 (Value.ofNat m) e with
  | some v => .ok (.float (if negative then v.negate else v))
  | none => .error .syntaxError

/-- An exponent of more than 31 bits: nothing but zero can be meant. -/
def hugeExponent (negative : Bool) (m : Nat) (up : Bool) : Except Problem Number :=
  if m ≠ 0 ∧ up then .error .syntaxError
  else .ok (.float (if negative then Value.zero.negate else Value.zero))

/-- Two to the 31: the first exponent that counts as one of more than 31 bits. -/
def exponentLimit : Nat := 2147483648

def readExponentPart (negative : Bool) (m : Nat) (e : Int) (cs : List Char) :
    Except Problem (Number × List Char) :=
  let (down, body) := match cs with
    | '+' :: rest => (false, rest)
    | '-' :: rest => (true, rest)
    | rest => (false, rest)
  let ds := body.takeWhile isDigit
  let rest := body.dropWhile isDigit
  if ds.isEmpty then .error .syntaxError
  else
    let n := digitsFrom 0 ds
    if exponentLimit ≤ n then (hugeExponent negative m !down).map (·, rest)
    else (floatOfParts negative m (if down then e - n else e + n)).map (·, rest)

/-- What follows the digits of a number that is no whole number of 64 bits. -/
def readTail (negative : Bool) (m : Nat) (e : Int) :
    List Char → Except Problem (Number × List Char)
  | [] => (floatOfParts negative m e).map (·, [])
  | c :: cs =>
    if c = 'e' ∨ c = 'E' then readExponentPart negative m e cs
    else (floatOfParts negative m e).map (·, c :: cs)

def readFraction (negative : Bool) (m : Nat) (e : Int) (cs : List Char) :
    Except Problem (Number × List Char) :=
  let (m, taken, rest) := takeDigits m 0 cs
  if taken = 0 ∧ !startsWithDigit rest then .error .syntaxError
  else readTail negative m (e - taken) (rest.dropWhile isDigit)

/-- What follows the whole part `m`, after `dropped` of its digits did not fit. -/
def readAfterWhole (negative : Bool) (m dropped : Nat) (cs : List Char) :
    Except Problem (Number × List Char) :=
  match cs with
  | '.' :: rest => readFraction negative m dropped rest
  | 'e' :: rest => readExponentPart negative m dropped rest
  | 'E' :: rest => readExponentPart negative m dropped rest
  | rest =>
    if 0 < dropped then (floatOfParts negative m dropped).map (·, rest)
    else if !negative then .ok (.natural m, rest)
    else if m = 0 ∨ signedLimit < m then .ok (.float (Value.negate (Value.ofNat m)), rest)
    else .ok (.negative m, rest)

def readUnsignedNumber (negative : Bool) : Reader Number
  | [] => .error .syntaxError
  | c :: cs =>
    if c = '0' then
      if startsWithDigit cs then .error .syntaxError else readAfterWhole negative 0 0 cs
    else if isDigit c then
      let (m, _, rest) := takeDigits 0 0 (c :: cs)
      let dropped := (rest.takeWhile isDigit).length
      readAfterWhole negative m dropped (rest.dropWhile isDigit)
    else .error .syntaxError

def readNumber : Reader Number
  | '-' :: cs => readUnsignedNumber true cs
  | cs => readUnsignedNumber false cs

def skipDigits (cs : List Char) : Except Problem (List Char) :=
  if startsWithDigit cs then .ok (cs.dropWhile isDigit) else .error .syntaxError

/-- Passes over the whole part of a number; a leading zero stands alone. -/
def skipWholePart : List Char → Except Problem (List Char)
  | [] => .error .syntaxError
  | c :: cs =>
    if c = '0' then
      if startsWithDigit cs then .error .syntaxError else .ok cs
    else skipDigits (c :: cs)

def skipFractionPart : List Char → Except Problem (List Char)
  | [] => .ok []
  | c :: cs => if c = '.' then skipDigits cs else .ok (c :: cs)

def skipExponentPart : List Char → Except Problem (List Char)
  | [] => .ok []
  | c :: cs =>
    if c = 'e' ∨ c = 'E' then
      match cs with
      | [] => .error .syntaxError
      | d :: more => skipDigits (if d = '+' ∨ d = '-' then more else d :: more)
    else .ok (c :: cs)

def skipNumber (cs : List Char) : Except Problem (List Char) := do
  let unsigned := match cs with
    | '-' :: rest => rest
    | rest => rest
  let afterWhole ← skipWholePart unsigned
  let afterFraction ← skipFractionPart afterWhole
  skipExponentPart afterFraction

def readWord (word : String) (cs : List Char) : Except Problem (List Char) :=
  match stripStart word.toList cs with
  | some rest => .ok rest
  | none => .error .syntaxError

def Number.found : Number → Found
  | .natural n => .integer n
  | .negative n => .integer (-n)
  | .float v => .float v

/-- The value at the start of the text, described; lists and objects are not looked into. -/
def describe (cs : List Char) : Except Problem Found :=
  match cs with
  | [] => .error .syntaxError
  | c :: rest =>
    if c = 'n' then (readWord "null" cs).map fun _ => .null
    else if c = 't' then (readWord "true" cs).map fun _ => .boolean true
    else if c = 'f' then (readWord "false" cs).map fun _ => .boolean false
    else if c = '-' ∨ isDigit c then (readNumber cs).map fun r => r.1.found
    else if c = '"' then (readTextBody rest).map fun r => .text r.1
    else if c = '[' then .ok .sequence
    else if c.toNat = 0x7b then .ok .map
    else .error .syntaxError

def mismatch (expected : String) (cs : List Char) : Problem :=
  match describe cs with
  | .ok found => .invalidType found expected
  | .error problem => problem

def startsNumber : List Char → Bool
  | [] => false
  | c :: _ => c = '-' || isDigit c

/-- A whole number from zero to 2^64 - 1. -/
def readNat (expected : String) : Reader Nat := fun cs =>
  let cs := skipSpace cs
  if startsNumber cs then
    match readNumber cs with
    | .error problem => .error problem
    | .ok (.natural n, rest) => .ok (n, rest)
    | .ok (.negative n, _) => .error (.invalidValue (.integer (-n)) expected)
    | .ok (.float v, _) => .error (.invalidType (.float v) expected)
  else .error (mismatch expected cs)

def precisionWord : Precision → String
  | .single => "f32"
  | .double => "f64"

def Number.value (p : Precision) : Number → Value p
  | .natural n => Value.ofNat n
  | .negative n => Value.negate (Value.ofNat n)
  | .float v => v.convert p

def readFloat (p : Precision) : Reader (Value p) := fun cs =>
  let cs := skipSpace cs
  if startsNumber cs then (readNumber cs).map fun r => (r.1.value p, r.2)
  else .error (mismatch (precisionWord p) cs)

def readText : Reader String := fun cs =>
  match skipSpace cs with
  | '"' :: rest => readTextBody rest
  | cs => .error (mismatch "a string" cs)

def readOptional {α : Type} (reader : Reader α) : Reader (Option α) := fun cs =>
  match skipSpace cs with
  | 'n' :: rest => (readWord "null" ('n' :: rest)).map (none, ·)
  | cs => (reader cs).map fun r => (some r.1, r.2)

/-- The text of the next item of a list or object, or `none` after its closing mark. `first` tells
whether the opening mark has just been passed; later items follow a comma. -/
def nextItem (closing : Char) (first : Bool) (cs : List Char) :
    Except Problem (Option (List Char) × List Char) :=
  match skipSpace cs with
  | [] => .error .syntaxError
  | c :: rest =>
    if c = closing then .ok (none, rest)
    else if first then .ok (some (c :: rest), [])
    else if c = ',' then
      match skipSpace rest with
      | [] => .error .syntaxError
      | d :: more => if d = closing then .error .syntaxError else .ok (some (d :: more), [])
    else .error .syntaxError

/-- The items of a list after its opening bracket; `out` holds those so far, last one first. -/
def readItems {α : Type} (item : Reader α) :
    (fuel : Nat) → (first : Bool) → (out : List α) → Reader (List α)
  | 0, _, _ => fun _ => .error .syntaxError
  | fuel + 1, first, out => fun cs => do
    match ← nextItem ']' first cs with
    | (none, rest) => return (out.reverse, rest)
    | (some here, _) =>
      let (a, rest) ← item here
      readItems item fuel false (a :: out) rest

/-- A list; every item takes a character, so the length of the text bounds their number. -/
def readList {α : Type} (item : Reader α) : Reader (List α) := fun cs =>
  match skipSpace cs with
  | '[' :: rest => readItems item (rest.length + 1) true [] rest
  | cs => .error (mismatch "a sequence" cs)

def readColon (cs : List Char) : Except Problem (List Char) :=
  match skipSpace cs with
  | ':' :: rest => .ok rest
  | _ => .error .syntaxError

def closeBrace : Char := Char.ofNat 0x7d

/-- The members of an object after its opening brace. `member` sees the key before the colon and
gives the reader of the value, which continues from the state so far. -/
def readMembers {σ : Type} (member : String → σ → Except Problem (Reader σ)) :
    (fuel : Nat) → (first : Bool) → σ → Reader σ
  | 0, _, _ => fun _ => .error .syntaxError
  | fuel + 1, first, state => fun cs => do
    match ← nextItem closeBrace first cs with
    | (none, rest) => return (state, rest)
    | (some ('"' :: here), _) =>
      let (key, rest) ← readTextBody here
      let value ← member key state
      let rest ← readColon rest
      let (state, rest) ← value rest
      readMembers member fuel false state rest
    | (some _, _) => throw .syntaxError

def readObject {σ : Type} (expected : String) (member : String → σ → Except Problem (Reader σ))
    (start : σ) : Reader σ := fun cs =>
  match skipSpace cs with
  | [] => .error .syntaxError
  | c :: rest =>
    if c.toNat = 0x7b then readMembers member (rest.length + 1) true start rest
    else .error (mismatch expected (c :: rest))

/-- What a passed-over value needs next: a value, a key, or nothing more for the innermost one. -/
inductive Skipping
  | value
  | key
  | done

/-- Passes over one value with everything in it. `frames` holds the open brackets, `true` for an
object. -/
def skipFrom : (fuel : Nat) → Skipping → (frames : List Bool) → List Char →
    Except Problem (List Char)
  | 0, _, _, _ => .error .syntaxError
  | _ + 1, .done, [], cs => .ok cs
  | fuel + 1, .done, frame :: frames, cs =>
    match skipSpace cs with
    | [] => .error .syntaxError
    | c :: rest =>
      if c = ',' then skipFrom fuel (if frame then .key else .value) (frame :: frames) rest
      else if c = (if frame then closeBrace else ']') then skipFrom fuel .done frames rest
      else .error .syntaxError
  | fuel + 1, .key, frames, cs =>
    match skipSpace cs with
    | [] => .error .syntaxError
    | c :: rest =>
      if c = '"' then do
        let (_, rest) ← skipTextFrom .plain rest
        let rest ← readColon rest
        skipFrom fuel .value frames rest
      else .error .syntaxError
  | fuel + 1, .value, frames, cs =>
    match skipSpace cs with
    | [] => .error .syntaxError
    | c :: rest =>
      if c = '[' then
        match skipSpace rest with
        | [] => .error .syntaxError
        | d :: more =>
          if d = ']' then skipFrom fuel .done frames more
          else skipFrom fuel .value (false :: frames) (d :: more)
      else if c.toNat = 0x7b then
        match skipSpace rest with
        | [] => .error .syntaxError
        | d :: more =>
          if d = closeBrace then skipFrom fuel .done frames more
          else skipFrom fuel .key (true :: frames) (d :: more)
      else if c = '"' then do
        let (_, rest) ← skipTextFrom .plain rest
        skipFrom fuel .done frames rest
      else if c = '-' ∨ isDigit c then do
        let rest ← skipNumber (c :: rest)
        skipFrom fuel .done frames rest
      else if c = 'n' then do
        let rest ← readWord "null" (c :: rest)
        skipFrom fuel .done frames rest
      else if c = 't' then do
        let rest ← readWord "true" (c :: rest)
        skipFrom fuel .done frames rest
      else if c = 'f' then do
        let rest ← readWord "false" (c :: rest)
        skipFrom fuel .done frames rest
      else .error .syntaxError

/-- Passes over one value. Every turn takes a character or ends, so the length bounds the turns. -/
def skipValue (cs : List Char) : Except Problem (List Char) :=
  skipFrom (cs.length + 2) .value [] cs

/-- How a record is written. `read` adds the value of one field to what is known so far; when the
fields are not required, those that the text leaves out keep the value they start with. -/
structure Shape (field state : Type) where
  title : String
  fields : List field
  name : field → String
  required : Bool
  read : field → state → Reader state

namespace Shape
variable {field state : Type} [DecidableEq field]

/-- The record as a list of its fields in order, from the `index`-th field on. -/
def readPositional (shape : Shape field state) : (rest : List field) → (index : Nat) → state →
    Reader state
  | [], _, s => fun cs =>
    match skipSpace cs with
    | ']' :: more => .ok (s, more)
    | _ => .error .syntaxError
  | f :: fs, index, s => fun cs => do
    match ← nextItem ']' (index == 0) cs with
    | (none, more) =>
      if shape.required then
        throw (.invalidLength index
          (shape.title ++ " with " ++ toString shape.fields.length ++ " elements"))
      else return (s, more)
    | (some here, _) =>
      let (s, more) ← shape.read f s here
      readPositional shape fs (index + 1) s more

/-- One member of the record as an object: the state and the fields seen so far. -/
def member (shape : Shape field state) (key : String) (s : state × List field) :
    Except Problem (Reader (state × List field)) :=
  match shape.fields.find? (fun f => shape.name f == key) with
  | none => .ok fun cs => (skipValue cs).map (s, ·)
  | some f =>
    if f ∈ s.2 then .error (.duplicateField key)
    else .ok fun cs => (shape.read f s.1 cs).map fun r => ((r.1, f :: s.2), r.2)

def firstMissing (shape : Shape field state) (seen : List field) : Option field :=
  if shape.required then shape.fields.find? (fun f => f ∉ seen) else none

/-- The record in either form. -/
def reader (shape : Shape field state) (start : state) : Reader state := fun cs =>
  match skipSpace cs with
  | '[' :: rest => shape.readPositional shape.fields 0 start rest
  | cs => do
    let ((s, seen), rest) ← readObject shape.title shape.member (start, []) cs
    match shape.firstMissing seen with
    | some f => throw (.missingField (shape.name f))
    | none => return (s, rest)

end Shape

/-- A whole text: one value, and nothing but blanks after it. -/
def readDocument {α : Type} (reader : Reader α) (text : String) : Except Problem α := do
  let (a, rest) ← reader text.toList
  match skipSpace rest with
  | [] => return a
  | _ => throw .syntaxError

end NeuronKernels.JsonReading
