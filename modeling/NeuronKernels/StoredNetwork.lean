import NeuronKernels.JsonLayout
import NeuronKernels.KernelUnit
import NeuronKernels.NetworkErrors

/-!
# Stored networks

A stored network holds the kernels of both passes without their handles. Its text is one JSON
object with fixed field names; all fields must be there when it is read.
-/

namespace NeuronKernels.StoredNetwork
open JsonReading KernelUnit NetworkErrors

/-- The stored kernels of both passes. -/
structure NetworkRecord where
  feed : List KernelRecord
  train : List KernelRecord
  deriving DecidableEq

inductive KernelField
  | expressions
  | entryPoint
  | text
  deriving DecidableEq

def KernelField.name : KernelField → String
  | .expressions => "NumExpressions"
  | .entryPoint => "EntryPoint"
  | .text => "FullSource"

def kernelFields : List KernelField := [.expressions, .entryPoint, .text]

inductive NetworkField
  | feed
  | train
  deriving DecidableEq

def NetworkField.name : NetworkField → String
  | .feed => "FeedKernels"
  | .train => "TrainKernels"

def networkFields : List NetworkField := [.feed, .train]

def kernelFieldText (k : KernelRecord) : KernelField → List Char
  | .expressions => JsonLayout.number k.expressions
  | .entryPoint => JsonLayout.text k.entryPoint
  | .text => JsonLayout.text k.text

/-- A kernel as an object two levels down. -/
def kernelText (k : KernelRecord) : List Char :=
  JsonLayout.object 2 (kernelFields.map fun f => JsonLayout.member f.name (kernelFieldText k f))

def networkFieldText (r : NetworkRecord) : NetworkField → List Char
  | .feed => JsonLayout.list 1 (r.feed.map kernelText)
  | .train => JsonLayout.list 1 (r.train.map kernelText)

def NetworkRecord.text (r : NetworkRecord) : String :=
  String.ofList (JsonLayout.object 0
    (networkFields.map fun f => JsonLayout.member f.name (networkFieldText r f)))

def readKernelField : KernelField → KernelRecord → Reader KernelRecord
  | .expressions, k => fun cs =>
    (readNat "u64" cs).map fun r => ({ k with expressions := r.1 }, r.2)
  | .entryPoint, k => fun cs => (readText cs).map fun r => ({ k with entryPoint := r.1 }, r.2)
  | .text, k => fun cs => (readText cs).map fun r => ({ k with text := r.1 }, r.2)

def kernelShape : Shape KernelField KernelRecord where
  title := "struct KernelRecord"
  fields := kernelFields
  name := KernelField.name
  required := true
  read := readKernelField

def readKernel : Reader KernelRecord := kernelShape.reader ⟨0, "", ""⟩

def readNetworkField : NetworkField → NetworkRecord → Reader NetworkRecord
  | .feed, r => fun cs => (readList readKernel cs).map fun q => ({ r with feed := q.1 }, q.2)
  | .train, r => fun cs => (readList readKernel cs).map fun q => ({ r with train := q.1 }, q.2)

def networkShape : Shape NetworkField NetworkRecord where
  title := "struct NetworkRecord"
  fields := networkFields
  name := NetworkField.name
  required := true
  read := readNetworkField

def NetworkRecord.ofText (text : String) : Except NetworkError NetworkRecord :=
  match readDocument (networkShape.reader ⟨[], []⟩) text with
  | .ok r => .ok r
  | .error problem => .error (.malformedRecord problem)

end NeuronKernels.StoredNetwork
