import NeuronKernels.FileTree
import NeuronKernels.RunStamp

/-!
# Folders of runs

Every run keeps its logs in a folder of its own, named by its stamp. Only the last few runs are
kept: the folders are put into the order of their names, and the first ones in excess are removed.
What is not a folder with a readable stamp is left alone, and so is a folder that cannot be removed.
-/

namespace NeuronKernels.RunFolders
open FileTree TextPieces

def nameStart : String := "run_"

def isRunName (name : String) : Bool :=
  match dropStart nameStart name with
  | none => false
  | some stamp => (RunStamp.ofText stamp).isSome

def runPath (base stamp : String) : String := join base (nameStart ++ stamp)

/-- The run folders among the names in a folder, in the order of their names. -/
def runPaths (tree : Tree) (base : String) (names : List String) : List String :=
  ((sortByText id (names.filter isRunName)).map (join base)).filter (isFolder tree)

structure Leftover where
  path : String
  cause : FileFault

def Leftover.message (l : Leftover) : String :=
  "Warning: Failed to remove old log directory " ++ l.path ++ ": " ++ l.cause.message

/-- Removes folders and gives those that could not be removed. -/
def removeAll : List String → Tree → List Leftover × Tree
  | [], tree => ([], tree)
  | path :: rest, tree =>
    match removeFolder path tree with
    | (.ok (), tree) => removeAll rest tree
    | (.error cause, tree) =>
      let (leftovers, tree) := removeAll rest tree
      (⟨path, cause⟩ :: leftovers, tree)

/-- Removes all but the last `retention` run folders. A base folder that is not there needs no
cleaning. -/
def cleanUp (base : String) (retention : Nat) : FileAction (List Leftover) := fun tree =>
  if !pathExists tree base then (.ok [], tree)
  else
    match listFolder tree base with
    | .error cause => (.error cause, tree)
    | .ok names =>
      let runs := runPaths tree base names
      let (leftovers, tree) := removeAll (runs.take (runs.length - retention)) tree
      (.ok leftovers, tree)

end NeuronKernels.RunFolders
