import NeuronKernels.StatementFragment

/-!
# Neurons in layers

A neuron brings three fragments: the forward update, the trace update that belongs right after it,
and the update of the training pass. A graph is a list of layers of neurons. The forward order goes
through the layers and, within a layer, through its neurons; the training pass takes the reverse
order.
-/

namespace NeuronKernels.NeuronGraph
open StatementFragment

/-- The three fragments of a neuron. -/
structure Neuron where
  feed : Fragment
  trace : Fragment
  train : Fragment
  deriving DecidableEq

namespace Neuron

def feedSize (n : Neuron) : Nat := n.feed.size + n.trace.size

def trainSize (n : Neuron) : Nat := n.train.size

def feedText (n : Neuron) : String := n.feed.text ++ n.trace.text

def trainText (n : Neuron) : String := n.train.text

end Neuron

/-- Layers of neurons, the input side first. -/
structure Graph where
  layers : List (List Neuron)
  deriving DecidableEq

namespace Graph

def pushLayer (g : Graph) (layer : List Neuron) : Graph := ⟨g.layers ++ [layer]⟩

def forward (g : Graph) : List Neuron := g.layers.flatten

/-- The neurons in the order of the training pass: the last layer first, and the last neuron of a
layer first. -/
def backward (g : Graph) : List Neuron := g.layers.reverse.flatMap List.reverse

def neuronCount (g : Graph) : Nat := g.layers.foldr (fun layer count => layer.length + count) 0

def isEmpty (g : Graph) : Bool := g.neuronCount == 0

theorem backward_eq_reverse (g : Graph) : g.backward = g.forward.reverse := by
  simp [backward, forward, List.reverse_flatten, List.flatMap_def]

theorem forward_pushLayer (g : Graph) (layer : List Neuron) :
    (g.pushLayer layer).forward = g.forward ++ layer := by
  simp [forward, pushLayer]

theorem neuronCount_eq_length (g : Graph) : g.neuronCount = g.forward.length := by
  unfold neuronCount forward
  induction g.layers with
  | nil => rfl
  | cons layer layers ih => simp [ih]

end Graph

end NeuronKernels.NeuronGraph
