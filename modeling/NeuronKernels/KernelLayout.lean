import NeuronKernels.KernelUnit
import NeuronKernels.NetworkErrors
import NeuronKernels.StatementFragment

/-!
# The layout of kernel source

A draft collects the statements of a kernel before it is written: bindings in front, the chunks of
the neurons, bindings behind. It can be written in two dialects, which share all statements; the
second one reserves one of the argument names, so there that word is spelled differently wherever it
stands as a whole word. Kernels are sealed in the first dialect, and a sealed text gives back a
draft with all its statements in one chunk.
-/

namespace NeuronKernels.KernelLayout
open BinaryFloat KernelUnit NetworkErrors StatementFragment

inductive Dialect
  | openCl
  | wgsl
  deriving DecidableEq

def typeName : Precision → String
  | .single => "float"
  | .double => "double"

def inputName : String := "input"

def outputName : String := "output"

def memoryName : String := "x"

def rateName : String := "rate"

def targetName : String := "target"

/-- The spelling of the targets where their name is reserved. -/
def targetSpelling : String := "target_values"

/-- The arguments of a pass in C, before the arena. -/
def passArguments (t : String) : Pass → String
  | .feed => "global const " ++ t ++ " *" ++ inputName ++ ", global " ++ t ++ " *" ++ outputName
  | .train =>
    "global const " ++ t ++ " *" ++ rateName ++ ", global const " ++ t ++ " *" ++ targetName

theorem passArguments_feed (t : String) :
    passArguments t .feed =
      "global const " ++ t ++ " *" ++ inputName ++ ", global " ++ t ++ " *" ++ outputName := rfl

theorem passArguments_train (t : String) :
    passArguments t .train =
      "global const " ++ t ++ " *" ++ rateName ++ ", global const " ++ t ++ " *" ++ targetName := rfl

/-- The opening of a kernel, with its brace. -/
def signature (p : Precision) : Dialect → Pass → String → String
  | .openCl, pass, entryPoint =>
    "void kernel " ++ entryPoint ++ "(" ++ passArguments (typeName p) pass ++ ", global "
      ++ typeName p ++ " *" ++ memoryName ++ ") \x7b\n"
  | .wgsl, _, entryPoint => "@compute @workgroup_size(1)\nfn " ++ entryPoint ++ "() \x7b\n"

theorem signature_openCl (p : Precision) (pass : Pass) (entryPoint : String) :
    signature p .openCl pass entryPoint =
      "void kernel " ++ entryPoint ++ "(" ++ passArguments (typeName p) pass ++ ", global "
        ++ typeName p ++ " *" ++ memoryName ++ ") \x7b\n" := rfl

def closing : String := "\x7d\n"

def Dialect.spell : Dialect → String → String
  | .openCl, name => name
  | .wgsl, name => if name = targetName then targetSpelling else name

def bindingLine (position : Nat) (binding : String × String) : String :=
  "@group(0) @binding(" ++ toString position ++ ") var<storage, " ++ binding.2 ++ "> "
    ++ Dialect.wgsl.spell binding.1 ++ ": array<f32>;\n"

/-- The names that kernels refer to, with the kind of access that they need. -/
def bindings : List (String × String) :=
  [(inputName, "read"), (outputName, "read_write"), (memoryName, "read_write"), (rateName, "read"),
   (targetName, "read")]

/-- Declarations that stand once before all kernels. -/
def prelude : Dialect → String
  | .openCl => ""
  | .wgsl => TextPieces.concat (bindings.mapIdx bindingLine) ++ "\n"

def isWordChar (c : Char) : Bool :=
  c == '_' || TextPieces.isDigit c || TextPieces.isAsciiLetter c

def spellWord (word : List Char) : List Char :=
  if word = targetName.toList then targetSpelling.toList else word

/-- The text with its words spelled anew; `word` holds the letters of the word that is being read,
the last one first. -/
def respellFrom : (word : List Char) → List Char → List Char
  | word, [] => spellWord word.reverse
  | word, c :: cs =>
    if isWordChar c then respellFrom (c :: word) cs
    else spellWord word.reverse ++ c :: respellFrom [] cs

def respell (cs : List Char) : List Char := respellFrom [] cs

def Dialect.lower : Dialect → String → String
  | .openCl, text => text
  | .wgsl, text => String.ofList (respell text.toList)

structure Draft where
  pass : Pass
  entryPoint : String
  prologue : List String
  body : List String
  epilogue : List String
  expressions : Nat
  deriving DecidableEq

namespace Draft

def start (pass : Pass) (entryPoint : String) : Draft := ⟨pass, entryPoint, [], [], [], 0⟩

/-- A fragment as a chunk of statements; an empty one gives none. -/
def chunks (f : Fragment) : List String := if f.isEmpty then [] else [f.text]

def pushPrologue (d : Draft) (f : Fragment) : Draft := { d with prologue := d.prologue ++ chunks f }

def pushNeuron (d : Draft) (statements : String) (expressions : Nat) : Draft :=
  { d with body := d.body ++ [statements], expressions := d.expressions + expressions }

def pushEpilogue (d : Draft) (f : Fragment) : Draft := { d with epilogue := d.epilogue ++ chunks f }

/-- All chunks in the order in which they are written. -/
def statements (d : Draft) : List String := d.prologue ++ d.body ++ d.epilogue

def render (p : Precision) (d : Draft) (dialect : Dialect) : String :=
  signature p dialect d.pass d.entryPoint
    ++ TextPieces.concat (d.statements.map dialect.lower) ++ closing

def toKernel (p : Precision) (d : Draft) : Kernel :=
  ⟨d.pass, d.entryPoint, d.render p .openCl, d.expressions, none⟩

/-- The draft that a source text was written from, with all statements in one chunk; `none` when
the text is not laid out as a kernel of that pass and entry point. -/
def ofSource (p : Precision) (source : Source) : Option Draft :=
  match TextPieces.dropStart (signature p .openCl source.pass source.entryPoint) source.text with
  | none => none
  | some rest =>
    (TextPieces.dropEnd closing rest).map fun statements =>
      { start source.pass source.entryPoint with
        body := if statements.isEmpty then [] else [statements] }

theorem ofSource_layout (p : Precision) (pass : Pass) (entryPoint statements : String) :
    ofSource p ⟨pass, entryPoint, signature p .openCl pass entryPoint ++ statements ++ closing⟩ =
      some { start pass entryPoint with
        body := if statements.isEmpty then [] else [statements] } := by
  have hs : TextPieces.dropStart (signature p .openCl pass entryPoint)
      (signature p .openCl pass entryPoint ++ statements ++ closing) =
        some (statements ++ closing) := by
    rw [TextPieces.dropStart_eq_some_iff, String.append_assoc]
  have he : TextPieces.dropEnd closing (statements ++ closing) = some statements :=
    TextPieces.dropEnd_eq_some_iff.mpr rfl
  simp only [ofSource, hs, he, Option.map_some]

end Draft

def layoutDiagnostics (source : Source) : String :=
  "kernel `" ++ source.entryPoint ++ "` does not have the generated " ++ source.pass.word
    ++ " layout"

def Draft.read (p : Precision) (source : Source) : Except NetworkError Draft :=
  (Draft.ofSource p source).elim (.error (.buildFailure (layoutDiagnostics source))) .ok

def lower (p : Precision) (source : Source) : Except NetworkError String :=
  (Draft.read p source).map fun d => d.render p .wgsl

/-- A program in the second dialect: the declarations, and then all kernels with an empty line
behind each. The first source that is not laid out as its kernel is refused. -/
def lowerProgram (p : Precision) (sources : List Source) : Except NetworkError String :=
  (sources.mapM (lower p)).map fun kernels =>
    prelude .wgsl ++ TextPieces.concat (kernels.map fun kernel => kernel ++ "\n")

end NeuronKernels.KernelLayout
