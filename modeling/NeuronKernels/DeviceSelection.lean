import NeuronKernels.ComputeDevice
import NeuronKernels.LogEvent
import NeuronKernels.TextPieces

/-!
# Choosing a device

A device is asked for by name, and two switches can force the choice. This library carries no
graphics device, so every choice ends at the portable one; the decision says why.
-/

namespace NeuronKernels.DeviceSelection
open LogEvent NetworkErrors

inductive DeviceKind
  | portable
  | auto
  deriving DecidableEq

def DeviceKind.word : DeviceKind → String
  | .portable => "Portable"
  | .auto => "Auto"

/-- The kind of device that a name asks for; capital letters do not matter, blanks do. -/
def DeviceKind.ofName (name : String) : Except NetworkError DeviceKind :=
  let small := TextPieces.smallLetters name
  if small = "portable" ∨ small = "cpu" then .ok .portable
  else if small = "auto" then .ok .auto
  else .error (.invalidBackend name)

structure Switches where
  forcePortable : Bool
  forceGpu : Bool
  deriving DecidableEq

structure Decision where
  kind : DeviceKind
  reason : String
  deriving DecidableEq

def gpuAvailable : Bool := false

/-- Whether the choice goes by the request alone, without looking for a graphics device. -/
def settled (requested : DeviceKind) (switches : Switches) : Bool :=
  switches.forcePortable || (requested == .portable && !switches.forceGpu)

def select (requested : DeviceKind) (switches : Switches) : Decision :=
  if switches.forcePortable then ⟨.portable, "Forced portable backend via configuration"⟩
  else if settled requested switches then ⟨.portable, "Portable backend requested"⟩
  else ⟨.portable, "Built without the 'gpu' feature"⟩

def eventTarget : String := "kernelnet_kernel_engine::backend"

/-- The warning that a graphics device was wanted and is not there. -/
def missingGpuEvent : Event where
  level := .warn
  target := eventTarget
  message := "GPU requested but 'gpu' feature not enabled at compile time, " ++
    "falling back to portable"
  fields := []
  spans := []

def selectedEvent (decision : Decision) : Event where
  level := .info
  target := eventTarget
  message := "Backend selected"
  fields := [("backend", .plain decision.kind.word), ("reason", .plain decision.reason)]
  spans := []

def events (requested : DeviceKind) (switches : Switches) : List Event :=
  (if !settled requested switches && switches.forceGpu then [missingGpuEvent] else [])
    ++ [selectedEvent (select requested switches)]

end NeuronKernels.DeviceSelection
