import NeuronKernels.BinaryFloat
import NeuronKernels.KernelUnit
import NeuronKernels.NetworkErrors

/-!
# Devices that run kernels

A device takes orders and answers questions, and each of them may fail. Orders are given one after
the other, and the first failure ends the row (`obey`). A buffer is read into values that are
handed over, and whoever asked gets them back as the device leaves them. A device that is not
accelerated cannot build anything. The portable one is always there: it is for writing sources only.
-/

namespace NeuronKernels.ComputeDevice
open BinaryFloat KernelUnit NetworkErrors

/-- What a device can be told to do. -/
inductive Order (p : Precision)
  | build (sources : List Source)
  | upload (memory : List (Value p))
  | stageFeed (inputs : List (Value p)) (outputs : Nat)
  | stageTrain (rate : Value p) (targets : List (Value p))
  | enqueue (handle : Nat)
  | finish
  deriving DecidableEq

/-- A kind of device with its state. Questions may change the state too, so that a device can count
them. -/
class Device (p : Precision) (δ : Type) where
  name : δ → String
  accelerated : δ → Bool
  order : Order p → δ → Except NetworkError Unit × δ
  handleOf : String → δ → Except NetworkError Nat × δ
  outputs : List (Value p) → δ → (Except NetworkError Unit × List (Value p)) × δ
  memory : List (Value p) → δ → (Except NetworkError Unit × List (Value p)) × δ

section
variable {p : Precision} {δ : Type} [Device p δ]

/-- Gives orders in a row, up to the first that fails. -/
def obey : List (Order p) → δ → Except NetworkError Unit × δ
  | [], d => (.ok (), d)
  | o :: rest, d =>
    match Device.order o d with
    | (.error e, d) => (.error e, d)
    | (.ok (), d) => obey rest d

/-- Asks for the handles of entry points in a row, up to the first that is refused. -/
def handlesOf (p : Precision) {δ : Type} [Device p δ] :
    List String → δ → Except NetworkError (List Nat) × δ
  | [], d => (.ok [], d)
  | name :: rest, d =>
    match Device.handleOf p name d with
    | (.error e, d) => (.error e, d)
    | (.ok handle, d) =>
      match handlesOf p rest d with
      | (.error e, d) => (.error e, d)
      | (.ok handles, d) => (.ok (handle :: handles), d)

end

/-- The device that writes sources only. -/
inductive Portable
  | portable
  deriving DecidableEq

def Portable.name : String := "Portable (source emission only)"

/-- What it answers when it should run something. -/
def Portable.unavailable : NetworkError :=
  .accelerationUnavailable (Portable.name ++ " cannot execute kernels")

/-- Its answer to an order; nothing is ever waiting to be finished. -/
def Portable.answer {p : Precision} : Order p → Except NetworkError Unit
  | .enqueue _ => .error .notBuilt
  | .finish => .ok ()
  | _ => .error Portable.unavailable

instance (p : Precision) : Device p Portable where
  name _ := Portable.name
  accelerated _ := false
  order o d := (Portable.answer o, d)
  handleOf _ d := (.error .notBuilt, d)
  outputs values d := ((.error .notBuilt, values), d)
  memory values d := ((.error .notBuilt, values), d)

/-- The device of a network: the portable one, or one that has been attached. -/
inductive Attachment (δ : Type)
  | portable
  | attached (device : δ)
  deriving DecidableEq

def Attachment.wrap {α δ : Type} (r : α × δ) : α × Attachment δ := (r.1, .attached r.2)

instance (p : Precision) (δ : Type) [Device p δ] : Device p (Attachment δ) where
  name
    | .portable => Portable.name
    | .attached d => Device.name p d
  accelerated
    | .portable => false
    | .attached d => Device.accelerated p d
  order o
    | .portable => (Portable.answer o, .portable)
    | .attached d => Attachment.wrap (Device.order o d)
  handleOf name
    | .portable => (.error .notBuilt, .portable)
    | .attached d => Attachment.wrap (Device.handleOf p name d)
  outputs values
    | .portable => ((.error .notBuilt, values), .portable)
    | .attached d => Attachment.wrap (Device.outputs values d)
  memory values
    | .portable => ((.error .notBuilt, values), .portable)
    | .attached d => Attachment.wrap (Device.memory values d)

end NeuronKernels.ComputeDevice
