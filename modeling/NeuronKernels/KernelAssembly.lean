import NeuronKernels.KernelLayout
import NeuronKernels.LogEvent
import NeuronKernels.MemoryArena
import NeuronKernels.NeuronGraph

/-!
# Assembly of kernels

The neurons of a graph are packed into kernels in their order, as many into each as the limit on
expressions allows; a neuron is never divided. The forward pass keeps one expression of room below
its limit, the training pass fills up to it. A neuron that is too large by itself gets a kernel of
its own. Every kernel copies its arguments in before its neurons, and every kernel of the forward
pass copies the outputs out behind them.
-/

namespace NeuronKernels.KernelAssembly
open BinaryFloat KernelUnit KernelLayout LogEvent MemoryArena NeuronGraph

variable {α : Type} {p : Precision}

def minimumLimit : Nat := 100

/-- The limit that a wanted number of expressions gives. -/
def expressionLimit (budget : Nat) : Nat := max budget minimumLimit

/-- Packs the rest of a list after an open group, which holds its items last one first, and whose
sizes sum to `total`. -/
def packFrom (fits : Nat → Nat → Bool) (size : α → Nat) :
    (group : List α) → (total : Nat) → List α → List (List α)
  | group, _, [] => [group.reverse]
  | group, total, a :: rest =>
    if fits total (size a) then packFrom fits size (a :: group) (total + size a) rest
    else group.reverse :: packFrom fits size [a] (size a) rest

/-- Packs a list into groups: an item joins the open group if it `fits` what is there. -/
def pack (fits : Nat → Nat → Bool) (size : α → Nat) : List α → List (List α)
  | [] => []
  | a :: rest => packFrom fits size [a] (size a) rest

theorem flatten_packFrom (fits : Nat → Nat → Bool) (size : α → Nat) (group : List α) (total : Nat)
    (items : List α) : (packFrom fits size group total items).flatten = group.reverse ++ items := by
  induction items generalizing group total with
  | nil => simp [packFrom]
  | cons a rest ih =>
    by_cases h : fits total (size a) <;> simp [packFrom, h, ih]

theorem flatten_pack (fits : Nat → Nat → Bool) (size : α → Nat) (items : List α) :
    (pack fits size items).flatten = items := by
  cases items with
  | nil => rfl
  | cons a rest => simp [pack, flatten_packFrom]

def feedFits (limit total incoming : Nat) : Bool := total + incoming < limit

def trainFits (limit total incoming : Nat) : Bool := total + incoming ≤ limit

def feedGroups (g : Graph) (budget : Nat) : List (List Neuron) :=
  pack (feedFits (expressionLimit budget)) Neuron.feedSize g.forward

def trainGroups (g : Graph) (budget : Nat) : List (List Neuron) :=
  pack (trainFits (expressionLimit budget)) Neuron.trainSize g.backward

def pushNeurons (text : Neuron → String) (size : Neuron → Nat) (d : Draft) (ns : List Neuron) :
    Draft :=
  ns.foldl (fun d n => d.pushNeuron (text n) (size n)) d

def feedDraft (a : Arena p) (position : Nat) (group : List Neuron) : Draft :=
  let opened := (Draft.start .feed (Pass.feed.entryPoint position)).pushPrologue a.inputsFragment
  (pushNeurons Neuron.feedText Neuron.feedSize opened group).pushEpilogue a.outputsFragment

def trainDraft (a : Arena p) (position : Nat) (group : List Neuron) : Draft :=
  let opened := ((Draft.start .train (Pass.train.entryPoint position)).pushPrologue
    a.rateFragment).pushPrologue a.targetsFragment
  pushNeurons Neuron.trainText Neuron.trainSize opened group

def feedDrafts (g : Graph) (a : Arena p) (budget : Nat) : List Draft :=
  (feedGroups g budget).mapIdx (feedDraft a)

def trainDrafts (g : Graph) (a : Arena p) (budget : Nat) : List Draft :=
  (trainGroups g budget).mapIdx (trainDraft a)

def feedKernels (g : Graph) (a : Arena p) (budget : Nat) : List Kernel :=
  (feedDrafts g a budget).map (Draft.toKernel p)

def trainKernels (g : Graph) (a : Arena p) (budget : Nat) : List Kernel :=
  (trainDrafts g a budget).map (Draft.toKernel p)

def eventTarget : String := "kernelnet_kernel_engine::assembler"

def closingEvent (d : Draft) : Event where
  level := .trace
  target := eventTarget
  message := "Closing kernel"
  fields := [("entry_point", .quoted d.entryPoint), ("expressions", .number d.expressions),
    ("neurons", .number d.body.length)]
  spans := []

def assembledEvent (message : String) (count limit : Nat) : Event where
  level := .debug
  target := eventTarget
  message := message
  fields := [("kernels", .number count), ("limit", .number limit)]
  spans := []

/-- All reports of an assembly, the forward pass first. -/
def events (g : Graph) (a : Arena p) (budget : Nat) : List Event :=
  let feed := feedDrafts g a budget
  let train := trainDrafts g a budget
  let limit := expressionLimit budget
  feed.map closingEvent ++ [assembledEvent "Assembled feed kernels" feed.length limit]
    ++ train.map closingEvent ++ [assembledEvent "Assembled train kernels" train.length limit]

end NeuronKernels.KernelAssembly
