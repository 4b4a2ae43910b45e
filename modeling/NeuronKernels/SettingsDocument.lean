import NeuronKernels.ToolSettings
import NeuronKernels.TomlDocument

/-!
# Settings in a document

A section is a table with its fields, or an array of its values in their order. Whatever is left out
keeps its default, and names that mean nothing here are passed over; but a value of the wrong kind
spoils the whole document. A point in time counts as a table without any field of ours.
-/

namespace NeuronKernels.SettingsDocument
open ToolSettings TomlDocument

def valueOf : Kind → Node → Option ToolSettings.Value
  | .number, .integer n => if 0 ≤ n then some (.number n.toNat) else none
  | .flag, .boolean b => some (.flag b)
  | .text, .text s => some (.text s)
  | _, _ => none

def putNode (s : Settings) (key : Key) (node : Node) : Option Settings :=
  (valueOf key.kind node).map (put s key)

def putFields (entries : Entries) : List Key → Settings → Option Settings
  | [], s => some s
  | key :: rest, s =>
    match TomlDocument.find key.field entries with
    | none => putFields entries rest s
    | some node => (putNode s key node).bind (putFields entries rest)

/-- The settings with those of an array; values that come after the last setting do not count. -/
def putItems : List Key → List Node → Settings → Option Settings
  | key :: keys, node :: nodes, s => (putNode s key node).bind (putItems keys nodes)
  | _, _, s => some s

def putSection (keys : List Key) (s : Settings) : Node → Option Settings
  | .table _ entries => putFields entries keys s
  | .array items => putItems keys items s
  | .tables items => putItems keys (items.map (.table .header)) s
  | .dateTime => some s
  | _ => none

def putSections (root : Entries) : List Section → Settings → Option Settings
  | [], s => some s
  | part :: rest, s =>
    match TomlDocument.find part.name root with
    | none => putSections root rest s
    | some node => (putSection part.keys s node).bind (putSections root rest)

/-- The settings of a document; `none` for any fault. -/
def ofText (text : String) : Option Settings :=
  match TomlDocument.ofText text with
  | none => none
  | some root => putSections root sections defaults

end NeuronKernels.SettingsDocument
