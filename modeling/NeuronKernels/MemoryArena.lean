import NeuronKernels.BinaryFloat
import NeuronKernels.StatementFragment

/-!
# The memory arena of a network

All values of a network live in one arena and are addressed by their index. Slots are only ever
added at the end, so an index stays good once it has been handed out. Some slots are bound to the
arguments of kernels; the four bind fragments are the statements that copy between an argument and
its slot. There is one output value for each output binding.
-/

namespace NeuronKernels.MemoryArena
open BinaryFloat StatementFragment

/-- An arena with its outputs, named slots and argument bindings. The named slots stand in the order
of their first use, each name once. -/
structure Arena (p : Precision) where
  memory : List (Value p)
  outputs : List (Value p)
  namedSlots : List (String × Nat)
  inputs : List Nat
  outputBindings : List Nat
  targets : List Nat
  rate : Option Nat
  deriving DecidableEq

inductive ArenaError
  | indexOutOfBounds (index size : Nat)
  | outputOutOfBounds (index size : Nat)
  deriving DecidableEq

def ArenaError.message : ArenaError → String
  | .indexOutOfBounds index size =>
    "Memory index " ++ toString index ++ " out of bounds (arena size " ++ toString size ++ ")"
  | .outputOutOfBounds index size =>
    "Output slot " ++ toString index ++ " out of bounds (outputs size " ++ toString size ++ ")"

def findName (name : String) : List (String × Nat) → Option Nat
  | [] => none
  | entry :: rest => if entry.1 = name then some entry.2 else findName name rest

/-- The list with `index` under `name`, in the place of an earlier entry of that name or at the
end. -/
def putName (name : String) (index : Nat) : List (String × Nat) → List (String × Nat)
  | [] => [(name, index)]
  | entry :: rest =>
    if entry.1 = name then (name, index) :: rest else entry :: putName name index rest

theorem findName_putName_self (name : String) (index : Nat) (entries : List (String × Nat)) :
    findName name (putName name index entries) = some index := by
  induction entries with
  | nil => simp [putName, findName]
  | cons entry rest ih => by_cases h : entry.1 = name <;> simp [putName, findName, h, ih]

theorem findName_putName_of_ne {name other : String} (h : other ≠ name) (index : Nat)
    (entries : List (String × Nat)) :
    findName other (putName name index entries) = findName other entries := by
  induction entries with
  | nil => simp [putName, findName, Ne.symm h]
  | cons entry rest ih =>
    by_cases hn : entry.1 = name
    · simp [putName, findName, hn, Ne.symm h]
    · simp [putName, findName, hn, ih]

namespace Arena
variable {p : Precision}

def empty : Arena p := ⟨[], [], [], [], [], [], none⟩

def allocate (a : Arena p) (value : Value p) : Nat × Arena p :=
  (a.memory.length, { a with memory := a.memory ++ [value] })

def variableIndex (a : Arena p) (name : String) : Option Nat := findName name a.namedSlots

/-- The slot of that name, added with `value` when the name is new. -/
def allocateOrReuse (a : Arena p) (name : String) (value : Value p) : Nat × Arena p :=
  match a.variableIndex name with
  | some index => (index, a)
  | none =>
    let (index, b) := a.allocate value
    (index, { b with namedSlots := putName name index b.namedSlots })

def checkIndex (a : Arena p) (index : Nat) : Except ArenaError Unit :=
  if index < a.memory.length then .ok () else .error (.indexOutOfBounds index a.memory.length)

def value (a : Arena p) (index : Nat) : Except ArenaError (Value p) :=
  match a.memory[index]? with
  | some v => .ok v
  | none => .error (.indexOutOfBounds index a.memory.length)

def output (a : Arena p) (index : Nat) : Except ArenaError (Value p) :=
  match a.outputs[index]? with
  | some v => .ok v
  | none => .error (.outputOutOfBounds index a.outputs.length)

def setValue (a : Arena p) (index : Nat) (value : Value p) : Except ArenaError (Arena p) :=
  (a.checkIndex index).map fun _ => { a with memory := a.memory.set index value }

def registerInput (a : Arena p) (index : Nat) : Except ArenaError (Arena p) :=
  (a.checkIndex index).map fun _ => { a with inputs := a.inputs ++ [index] }

/-- Binds the next output to a slot; its value is zero at first. -/
def registerOutput (a : Arena p) (index : Nat) : Except ArenaError (Arena p) :=
  (a.checkIndex index).map fun _ =>
    { a with outputBindings := a.outputBindings ++ [index], outputs := a.outputs ++ [Value.zero] }

def registerTarget (a : Arena p) (index : Nat) : Except ArenaError (Arena p) :=
  (a.checkIndex index).map fun _ => { a with targets := a.targets ++ [index] }

def setRate (a : Arena p) (index : Nat) : Except ArenaError (Arena p) :=
  (a.checkIndex index).map fun _ => { a with rate := some index }

def fillOutputs (a : Arena p) (value : Value p) : Arena p :=
  { a with outputs := a.outputs.map fun _ => value }

/-- A list with the values of `source` in front, as far as it reaches; the length stays. -/
def overlay (source old : List (Value p)) : List (Value p) :=
  source.take old.length ++ old.drop source.length

theorem length_overlay (source old : List (Value p)) :
    (overlay source old).length = old.length := by
  simp [overlay]
  omega

def overwriteMemory (a : Arena p) (source : List (Value p)) : Arena p :=
  { a with memory := overlay source a.memory }

def overwriteOutputs (a : Arena p) (source : List (Value p)) : Arena p :=
  { a with outputs := overlay source a.outputs }

def element (array : String) (index : Nat) : String := array ++ "[" ++ toString index ++ "]"

def assignment (left right : String) : String := left ++ " = " ++ right

def inputsFragment (a : Arena p) : Fragment :=
  ⟨a.inputs.mapIdx fun k index => assignment (element "x" index) (element "input" k)⟩

def outputsFragment (a : Arena p) : Fragment :=
  ⟨a.outputBindings.mapIdx fun k index => assignment (element "output" k) (element "x" index)⟩

def rateFragment (a : Arena p) : Fragment :=
  ⟨a.rate.toList.map fun index => assignment (element "x" index) (element "rate" 0)⟩

def targetsFragment (a : Arena p) : Fragment :=
  ⟨a.targets.mapIdx fun k index => assignment (element "x" index) (element "target" k)⟩

def valuesAgree : List (Value p) → List (Value p) → Bool
  | [], [] => true
  | v :: vs, w :: ws => v.agrees w && valuesAgree vs ws
  | _, _ => false

/-- Numeric equality of two arenas; the order in which names were first used does not matter. -/
def agrees (a b : Arena p) : Bool :=
  valuesAgree a.memory b.memory && valuesAgree a.outputs b.outputs
    && a.namedSlots.length == b.namedSlots.length
    && a.namedSlots.all (fun entry => b.variableIndex entry.1 == some entry.2)
    && a.inputs == b.inputs && a.outputBindings == b.outputBindings && a.targets == b.targets
    && a.rate == b.rate

end Arena

end NeuronKernels.MemoryArena
