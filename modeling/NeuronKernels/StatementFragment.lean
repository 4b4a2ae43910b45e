import NeuronKernels.TextPieces

/-!
# Fragments of kernel source

A fragment is an ordered list of expressions. As source text every expression becomes a statement
on a line of its own.
-/

namespace NeuronKernels.StatementFragment

/-- An ordered list of generated expressions. -/
structure Fragment where
  expressions : List String
  deriving DecidableEq

def statement (expression : String) : String := expression ++ ";\n"

namespace Fragment

def empty : Fragment := ⟨[]⟩

def size (f : Fragment) : Nat := f.expressions.length

def isEmpty (f : Fragment) : Bool := f.expressions.isEmpty

/-- The source text: one statement for each expression. -/
def text (f : Fragment) : String := TextPieces.concat (f.expressions.map statement)

def append (f g : Fragment) : Fragment := ⟨f.expressions ++ g.expressions⟩

theorem text_empty : empty.text = "" := rfl

theorem text_append (f g : Fragment) : (f.append g).text = f.text ++ g.text := by
  simp [text, append, TextPieces.concat_append]

end Fragment

end NeuronKernels.StatementFragment
