import NeuronKernels.ExportCommand

/-!
# The program

The command works on a tree of files in memory. Here the files that it can read or write are looked
up first, the command is run, and what it changed is written back.
-/

namespace NeuronKernels.Main
open FileTree ExportCommand

/-- What stands under a path. The number twenty-one is the system's code for a folder that was
opened as a file. -/
def probe (path : String) : IO (Option Entry) := do
  try
    let bytes ← IO.FS.readBinFile path
    return match String.fromUTF8? bytes with
      | some content => some (.text content)
      | none => some .bytes
  catch
    | .inappropriateType _ code _ => return if code = 21 then some .folder else none
    | _ => return none

/-- The tree with everything that a walk along names passes. -/
def survey : (names here : List String) → Tree → IO Tree
  | [], _, tree => pure tree
  | name :: rest, here, tree => do
    if name = "." then survey rest here tree
    else if name = ".." then survey rest here.dropLast tree
    else
      let place := here ++ [name]
      let tree ← match tree.find place with
        | some _ => pure tree
        | none =>
          match ← probe (pathText place) with
          | some entry => pure (tree.put place entry)
          | none => pure tree
      survey rest place tree

def surveyAll : List String → Tree → IO Tree
  | [], tree => pure tree
  | path :: rest, tree => do
    let tree ← survey (pathNames path) (startOf tree path) tree
    surveyAll rest tree
where
  /-- Where a path starts. -/
  startOf (tree : Tree) (path : String) : List String :=
    if isAbsolute path then [] else tree.working.path

def namedPaths (s : Surroundings) : List String :=
  let given := match requestOf s.arguments with
    | .export given => given.map Prod.snd
    | _ => []
  given ++ (SettingsSources.lookupVariable SettingsProblems.pathVariable s.environment).toList

def outputPaths (s : Surroundings) (tree : Tree) : List String :=
  match requestOf s.arguments with
  | .export given =>
    match readSettings s given tree with
    | .ok settings =>
      let out := settings.standalone
      [join out.outputDir (StandaloneSource.sourceName out.name),
       join out.outputDir (StandaloneSource.headerName out.name)]
    | .error _ => []
  | _ => []

def writeBack (before : Tree) : List (List String × Entry) → IO Unit
  | [] => pure ()
  | (path, entry) :: rest => do
    if before.find path ≠ some entry then
      match entry with
      | .folder => IO.FS.createDirAll (pathText path)
      | .text content => IO.FS.writeFile (pathText path) content
      | .bytes => pure ()
    writeBack before rest

def variableNames : List String :=
  SettingsSources.settingVariables.map Prod.fst
    ++ [SettingsProblems.pathVariable, DebugFlags.variableName, LoggingSession.filterVariable]

def readEnvironment : List String → IO SettingsSources.Environment
  | [] => pure []
  | name :: rest => do
    let others ← readEnvironment rest
    match ← IO.getEnv name with
    | some value => pure ((name, value) :: others)
    | none => pure others

def hexWord (length n : Nat) : String :=
  let digits := Nat.toDigits 16 n
  String.ofList (List.replicate (length - digits.length) '0' ++ digits)

/-- A word that no other run will use. -/
def newToken : IO String := do
  let high ← IO.rand 0 (TextPieces.signedLimit - 1)
  let low ← IO.monoNanosNow
  return hexWord 16 high ++ hexWord 16 low

def runHere (arguments : List String) : IO UInt32 := do
  let environment ← readEnvironment variableNames
  let working ← IO.currentDir
  let surroundings : Surroundings := ⟨arguments, environment, ⟨"", ""⟩, ← newToken⟩
  let places := pathNames working.toString
  let tree ← survey places [] ⟨[], ⟨places, 0⟩⟩
  let tree ← surveyAll (SettingsSources.searchPlaces tree ++ namedPaths surroundings) tree
  let tree ← surveyAll (outputPaths surroundings tree) tree
  let finished := run surroundings tree
  for line in finished.warnings ++ finished.log do
    IO.eprintln line
  writeBack tree finished.tree.entries
  IO.print finished.output
  match finished.failure with
  | some failure => IO.eprintln ("Error: " ++ report failure.chain)
  | none => if finished.exit = 2 then IO.eprintln ("error: wrong usage\n\n" ++ DebugFlags.helpText)
  return finished.exit.toUInt32

end NeuronKernels.Main

def main (arguments : List String) : IO UInt32 := NeuronKernels.Main.runHere arguments
