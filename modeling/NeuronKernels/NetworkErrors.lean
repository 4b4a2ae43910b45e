import NeuronKernels.FileTree
import NeuronKernels.JsonReading

/-!
# Errors of networks and devices

Each error belongs to the call that raised it; nothing is tried again on its own.
-/

namespace NeuronKernels.NetworkErrors

inductive NetworkError
  | accelerationUnavailable (reason : String)
  | buildFailure (diagnostics : String)
  | notBuilt
  | malformedRecord (problem : JsonReading.Problem)
  | unknownKernel (entryPoint : String)
  | dispatch (reason : String)
  | invalidBackend (name : String)
  | file (cause : FileTree.FileFault)
  deriving DecidableEq

def NetworkError.message : NetworkError → String
  | .accelerationUnavailable reason => "Acceleration unavailable: " ++ reason
  | .buildFailure diagnostics => "Kernel build failed: " ++ diagnostics
  | .notBuilt => "Kernels are not built"
  | .malformedRecord problem => "Malformed network record: " ++ problem.message
  | .unknownKernel entryPoint => "Unknown kernel entry point: " ++ entryPoint
  | .dispatch reason => "Dispatch error: " ++ reason
  | .invalidBackend name => "Invalid backend: " ++ name
  | .file cause => "I/O error: " ++ cause.message

end NeuronKernels.NetworkErrors
