import NeuronKernels.BinaryFloat

/-!
# Kernels

A kernel is a piece of source text with an entry point, made for one of the two passes. It counts
the neuron expressions that it carries and holds the handle that a device gave for it, if one did.
-/

namespace NeuronKernels.KernelUnit

inductive Pass
  | feed
  | train
  deriving DecidableEq

/-- The word for a pass, with which its entry points begin. -/
def Pass.word : Pass → String
  | .feed => "feed"
  | .train => "train"

/-- The entry point of the kernel at a position of its pass. -/
def Pass.entryPoint (pass : Pass) (position : Nat) : String :=
  pass.word ++ "_" ++ toString position

/-- What a device builds: the text of an entry point. -/
structure Source where
  pass : Pass
  entryPoint : String
  text : String
  deriving DecidableEq

structure Kernel where
  pass : Pass
  entryPoint : String
  text : String
  expressions : Nat
  handle : Option Nat
  deriving DecidableEq

namespace Kernel

def isBuilt (k : Kernel) : Bool := k.handle.isSome

def source (k : Kernel) : Source := ⟨k.pass, k.entryPoint, k.text⟩

def bind (k : Kernel) (handle : Nat) : Kernel := { k with handle := some handle }

def unbind (k : Kernel) : Kernel := { k with handle := none }

theorem isBuilt_unbind (k : Kernel) : k.unbind.isBuilt = false := rfl

theorem source_bind (k : Kernel) (handle : Nat) : (k.bind handle).source = k.source := rfl

theorem source_unbind (k : Kernel) : k.unbind.source = k.source := rfl

end Kernel

/-- The stored form of a kernel: it keeps neither the pass nor the handle. -/
structure KernelRecord where
  expressions : Nat
  entryPoint : String
  text : String
  deriving DecidableEq

def Kernel.toRecord (k : Kernel) : KernelRecord := ⟨k.expressions, k.entryPoint, k.text⟩

def KernelRecord.toKernel (r : KernelRecord) (pass : Pass) : Kernel :=
  ⟨pass, r.entryPoint, r.text, r.expressions, none⟩

theorem toRecord_toKernel (r : KernelRecord) (pass : Pass) :
    (r.toKernel pass).toRecord = r := rfl

theorem toKernel_toRecord (k : Kernel) : k.toRecord.toKernel k.pass = k.unbind := rfl

end NeuronKernels.KernelUnit
