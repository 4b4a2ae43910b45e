import NeuronKernels.DecimalText
import NeuronKernels.KernelLayout

/-!
# A network as plain C

The first kernel of each pass can be written out as a pair of C files that need no device: a header
that declares the arena, the outputs and the entry functions, and a source with the kernels, thin
functions that bind them to the arrays, and the arrays with their values. Infinities and values that
are no number are written with the names that the mathematics header defines, and that header is
included only when one of them is needed.
-/

namespace NeuronKernels.StandaloneSource
open BinaryFloat KernelUnit

structure Export (p : Precision) where
  feed : List Kernel
  train : List Kernel
  memory : List (Value p)
  outputs : List (Value p)

def line (s : String) : String := s ++ "\n"

def valuesPerLine : Nat := 8

variable {p : Precision}

def valueText : Value p → String
  | .nan => "NAN"
  | .infinity negative => if negative then "-INFINITY" else "INFINITY"
  | .finite negative rank => DecimalText.plainText (.finite negative rank : Value p)

/-- A value with the comma behind it, and the line break after every eighth. -/
def arrayItem (position : Nat) (v : Value p) : String :=
  valueText v ++ ", " ++ (if position % valuesPerLine = valuesPerLine - 1 then "\n" else "")

/-- The values of an array and the closing zero. -/
def arrayBody (values : List (Value p)) : String :=
  TextPieces.concat (values.mapIdx arrayItem) ++ "0 \x7d; \n"

def arrayText (name : String) (values : List (Value p)) : String :=
  line (KernelLayout.typeName p ++ " " ++ name ++ "[] = ") ++ "\x7b \n" ++ arrayBody values

/-- The declaration of the function that runs the forward pass. -/
def feedHead (p : Precision) (name : String) : String :=
  "void " ++ name ++ "Feed(const " ++ KernelLayout.typeName p ++ " *input)"

/-- The declaration of the function that runs the training pass. -/
def trainHead (p : Precision) (name : String) : String :=
  let t := KernelLayout.typeName p
  "void " ++ name ++ "Train(const " ++ t ++ " rate, const " ++ t ++ " *target)"

/-- The name of the include guard, which `token` makes unique. -/
def guardName (token : String) : String := "KERNELNET_STANDALONE_GUARD_" ++ token

def headerText (name token : String) (x : Export p) (trainable : Bool) : String :=
  let t := KernelLayout.typeName p
  let guard := guardName token
  TextPieces.concat
    [line ("#ifndef " ++ guard),
     line ("#define " ++ guard),
     line "",
     line ("extern " ++ t ++ " kMemory[];"),
     line ("const int kMemorySize = " ++ toString x.memory.length ++ ";"),
     line "",
     line ("extern " ++ t ++ " kOutputs[];"),
     line ("const int kOutputsSize = " ++ toString x.outputs.length ++ ";"),
     line "",
     line (feedHead p name ++ ";"),
     if trainable then line (trainHead p name ++ ";") else "",
     line "",
     line ("#endif //" ++ guard)]

/-- Whether a value needs the names of the mathematics header. -/
def needsMath (x : Export p) : Bool := (x.memory ++ x.outputs).any fun v => !v.isFinite

/-- The function that runs a forward kernel on the arrays. -/
def feedWrapper (p : Precision) (name : String) (k : Kernel) : String :=
  line (feedHead p name ++ " \x7b")
    ++ line ("    " ++ k.entryPoint ++ "(input, kOutputs, kMemory);") ++ "\x7d\n\n"

def trainWrapper (p : Precision) (name : String) (k : Kernel) : String :=
  line (trainHead p name ++ " \x7b")
    ++ line ("    " ++ k.entryPoint ++ "(&rate, target, kMemory);") ++ "\x7d\n\n"

def kernelText (k : Kernel) : String := line ("static " ++ k.text)

/-- What an optional kernel contributes. -/
def optionalText (text : Kernel → String) : Option Kernel → String
  | none => ""
  | some k => text k

def sourceText (name headerName : String) (feed : Kernel) (train : Option Kernel) (x : Export p) :
    String :=
  TextPieces.concat
    [line ("#include \"" ++ headerName ++ "\""),
     if needsMath x then line "#include <math.h>" else "",
     line "#define kernel",
     line "#define global",
     line "",
     kernelText feed,
     optionalText kernelText train,
     feedWrapper p name feed,
     optionalText (trainWrapper p name) train,
     arrayText "kMemory" x.memory,
     line "",
     arrayText "kOutputs" x.outputs]

def exportedTrain (constOnly : Bool) (x : Export p) : Option Kernel :=
  if constOnly then none else x.train.head?

def sourceName (name : String) : String := name ++ ".c"

def headerName (name : String) : String := name ++ ".h"

/-- The two files with their names, the source first; none if there is no forward kernel. -/
def files (name token : String) (constOnly : Bool) (x : Export p) : List (String × String) :=
  match x.feed with
  | [] => []
  | feed :: _ =>
    let train := exportedTrain constOnly x
    [(sourceName name, sourceText name (headerName name) feed train x),
     (headerName name, headerText name token x train.isSome)]

end NeuronKernels.StandaloneSource
