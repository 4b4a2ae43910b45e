import NeuronKernels.TextPieces

/-!
# Writing JSON text

Lists and objects are laid out with two blanks for each level, one item on a line and no line break
at the end; an empty one is the bare pair of brackets. In a string the two marks, the backslash and
the characters below the space are escaped, and everything else stands for itself.
-/

namespace NeuronKernels.JsonLayout

def hexDigit (n : Nat) : Char := if n < 10 then Char.ofNat (48 + n) else Char.ofNat (87 + n)

def escapedChar (c : Char) : List Char :=
  if c = '"' then ['\\', '"']
  else if c = '\\' then ['\\', '\\']
  else if c.toNat < 0x20 then
    if c.toNat = 8 then ['\\', 'b']
    else if c.toNat = 9 then ['\\', 't']
    else if c.toNat = 10 then ['\\', 'n']
    else if c.toNat = 12 then ['\\', 'f']
    else if c.toNat = 13 then ['\\', 'r']
    else ['\\', 'u', '0', '0', hexDigit (c.toNat / 16), hexDigit (c.toNat % 16)]
  else [c]

def text (s : String) : List Char := '"' :: s.toList.flatMap escapedChar ++ ['"']

def number (n : Nat) : List Char := Nat.toDigits 10 n

def newLine (depth : Nat) : List Char := '\n' :: List.replicate (2 * depth) ' '

/-- The items, each on a line of its own, with commas between them. -/
def lines (depth : Nat) : List (List Char) → List Char
  | [] => []
  | [item] => newLine depth ++ item
  | item :: next :: rest => newLine depth ++ item ++ ',' :: lines depth (next :: rest)

/-- Items between brackets; `depth` is the level of the closing one. -/
def block (depth : Nat) (opening closing : Char) (items : List (List Char)) : List Char :=
  if items.isEmpty then [opening, closing]
  else opening :: lines (depth + 1) items ++ newLine depth ++ [closing]

def list (depth : Nat) (items : List (List Char)) : List Char := block depth '[' ']' items

def object (depth : Nat) (members : List (List Char)) : List Char :=
  block depth (Char.ofNat 0x7b) (Char.ofNat 0x7d) members

def member (name : String) (value : List Char) : List Char := text name ++ ':' :: ' ' :: value

end NeuronKernels.JsonLayout
