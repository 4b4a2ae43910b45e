import NeuronKernels.ArenaSnapshot
import NeuronKernels.FileTree
import NeuronKernels.KernelNetwork
import NeuronKernels.ToolSettings

/-!
# Networks and files

Reading arenas and networks from files, saving networks, writing them out as C, and making the
network that the settings ask for.
-/

namespace NeuronKernels.NetworkFiles
open BinaryFloat FileTree KernelNetwork LogEvent MemoryArena NetworkErrors NeuronGraph
open ArenaSnapshot ToolSettings

variable {p : Precision} {δ : Type}

structure Written (α : Type) where
  result : Except NetworkError α
  tree : Tree
  events : List Event

def arenaTarget : String := "kernelnet_neural::memory"

def exportTarget : String := "kernelnet"

def arenaEvent (path : String) (a : Arena p) : Event where
  level := .debug
  target := arenaTarget
  message := "Loaded training context snapshot"
  fields := [("path", .plain path), ("memory", .number a.memory.length),
    ("outputs", .number a.outputs.length)]
  spans := []

def loadArena (p : Precision) (tree : Tree) (path : String) :
    Except SnapshotError (Arena p) × List Event :=
  match readText tree path with
  | .error cause => (.error (.unreadable path cause), [])
  | .ok text =>
    match ofText p text with
    | .error e => (.error e, [])
    | .ok a => (.ok a, [arenaEvent path a])

/-- Replaces the kernels by those of a file; a file that cannot be read changes nothing. -/
def loadNetwork (tree : Tree) (path : String) (n : Network p δ) : Outcome p δ Unit :=
  match readText tree path with
  | .error cause => ⟨.error (.file cause), n, []⟩
  | .ok text => n.loadText text

def saveNetwork (tree : Tree) (path : String) (n : Network p δ) : Written Unit :=
  match writeText path n.toRecord.text tree with
  | (.error cause, tree) => ⟨.error (.file cause), tree, []⟩
  | (.ok (), tree) =>
    ⟨.ok (), tree, [networkEvent .info "Network saved" [("path", .plain path)]]⟩

def exportEvent (message : String) (fields : List (String × FieldValue)) : Event where
  level := .info
  target := exportTarget
  message := message
  fields := fields
  spans := []

/-- Writes files into a folder, up to the first that fails, and gives their paths. -/
def writeFiles (folder : String) : List (String × String) → Tree → Written (List String)
  | [], tree => ⟨.ok [], tree, []⟩
  | file :: rest, tree =>
    let path := join folder file.1
    match writeText path file.2 tree with
    | (.error cause, tree) => ⟨.error (.file cause), tree, []⟩
    | (.ok (), tree) =>
      let others := writeFiles folder rest tree
      ⟨others.result.map (path :: ·), others.tree,
        exportEvent "Wrote standalone source" [("path", .plain path)] :: others.events⟩

/-- Writes a network as C files into the folder of the settings, which is made if needed. A network
without forward kernels writes nothing. -/
def writeStandalone (s : StandaloneSettings) (token : String) (n : Network p δ) (tree : Tree) :
    Written (List String) :=
  match n.standalone s.name token s.constOnly with
  | [] =>
    ⟨.ok [], tree,
      [exportEvent "Network has no kernels, nothing to export" [("name", .plain s.name)]]⟩
  | files =>
    match makeFolders s.outputDir tree with
    | (.error cause, tree) => ⟨.error (.file cause), tree, []⟩
    | (.ok (), tree) => writeFiles s.outputDir files tree

def wantedDevice (s : DeviceSettings) :
    Except NetworkError (DeviceSelection.DeviceKind × DeviceSelection.Switches) :=
  (DeviceSelection.DeviceKind.ofName s.kind).map fun kind =>
    (kind, ⟨s.forcePortable, s.forceGpu⟩)

/-- The device that the settings ask for: always the portable one. -/
def deviceOf (s : DeviceSettings) : Except NetworkError ComputeDevice.Portable × List Event :=
  match wantedDevice s with
  | .error e => (.error e, [])
  | .ok (kind, switches) => (.ok .portable, DeviceSelection.events kind switches)

def networkOf (s : Settings) (a : Arena p) (g : Graph) :
    Except NetworkError (Network p δ) × List Event :=
  match deviceOf s.device with
  | (.error e, events) => (.error e, events)
  | (.ok .portable, events) =>
    (.ok ((Network.ofGraph a g s.assembly.maxExpressions).withDevice .portable),
      events ++ Network.assemblyEvents a g s.assembly.maxExpressions)

end NeuronKernels.NetworkFiles
