import NeuronKernels.TextPieces

/-!
# A tree of files with a working folder

Every file and folder has an absolute path, a list of names from the root down. A written path is
walked from the root or from the working folder: each name but the last must lead to a folder, one
point stays in place and two points go up. A path that closes with a slash must lead to a folder.
A working folder that is removed stays a folder for the one who works in it, for good: nothing has a
name in it any more, but two points still lead up, through all folders that were removed with it.
Changes and failures are kept apart: an operation that fails half way leaves behind what it had
already done.
-/

namespace NeuronKernels.FileTree
open TextPieces

inductive FileFault
  | notFound
  | alreadyExists
  | notAFolder
  | isAFolder
  | nameTooLong
  | zeroCharacter
  | notText
  deriving DecidableEq, Repr

def FileFault.message : FileFault → String
  | .notFound => "No such file or directory (os error 2)"
  | .alreadyExists => "File exists (os error 17)"
  | .notAFolder => "Not a directory (os error 20)"
  | .isAFolder => "Is a directory (os error 21)"
  | .nameTooLong => "File name too long (os error 36)"
  | .zeroCharacter => "file name contained an unexpected NUL byte"
  | .notText => "stream did not contain valid UTF-8"

/-- What stands under a path; `bytes` is a file that holds no text. -/
inductive Entry
  | folder
  | text (content : String)
  | bytes
  deriving DecidableEq

/-- A place: a path of the tree, and how many folders below that path lead on to the place although
they have been removed. -/
structure Place where
  path : List String
  removed : Nat
  deriving DecidableEq

namespace Place

def up (place : Place) : Place :=
  match place.removed with
  | 0 => ⟨place.path.dropLast, 0⟩
  | n + 1 => ⟨place.path, n⟩

/-- A place below a folder once all that is below the folder has been removed. -/
def cutTo (place : Place) (folder : List String) : Place :=
  ⟨folder, place.removed + (place.path.length - folder.length)⟩

end Place

/-- All files and folders but the root, and the working folder. -/
structure Tree where
  entries : List (List String × Entry)
  working : Place
  deriving DecidableEq

abbrev FileAction (α : Type) := ExceptT FileFault (StateM Tree) α

namespace Tree

def find (tree : Tree) (path : List String) : Option Entry :=
  if path = [] then some .folder
  else (tree.entries.find? fun e => e.1 == path).map Prod.snd

def put (tree : Tree) (path : List String) (entry : Entry) : Tree :=
  if tree.entries.any fun e => e.1 == path then
    { tree with entries := tree.entries.map fun e => if e.1 == path then (path, entry) else e }
  else { tree with entries := tree.entries ++ [(path, entry)] }

def erase (tree : Tree) (path : List String) : Tree where
  entries := tree.entries.filter fun e => !(path.isPrefixOf e.1)
  working :=
    if path.isPrefixOf tree.working.path then tree.working.cutTo path.dropLast else tree.working

def clear (tree : Tree) (folder : List String) : Tree where
  entries := tree.entries.filter fun e => !(folder.isPrefixOf e.1) || e.1 == folder
  working :=
    if folder.isPrefixOf tree.working.path then tree.working.cutTo folder else tree.working

def names (tree : Tree) (folder : List String) : List String :=
  tree.entries.filterMap fun e =>
    if e.1.dropLast == folder then e.1.getLast? else none

/-- What stands at a place; a removed folder is still a folder. -/
def entryAt (tree : Tree) (place : Place) : Option Entry :=
  if place.removed = 0 then tree.find place.path else some .folder

/-- The path of the working folder, unless it has been removed. -/
def workingFolder (tree : Tree) : Option (List String) :=
  if tree.working.removed = 0 then some tree.working.path else none

theorem find_replaced_self {path : List String} {entries : List (List String × Entry)}
    (h : entries.any fun e => e.1 == path) (entry : Entry) :
    ((entries.map fun e => if e.1 == path then (path, entry) else e).find?
      fun e => e.1 == path) = some (path, entry) := by
  induction entries with
  | nil => simp at h
  | cons e rest ih =>
    rw [List.map_cons, List.find?_cons]
    by_cases he : e.1 == path
    · simp only [he, if_true, beq_self_eq_true]
    · have hb : (e.1 == path) = false := by simpa using he
      rw [List.any_cons, hb, Bool.false_or] at h
      rw [if_neg he, hb]
      exact ih h

theorem find_replaced_of_ne {path other : List String} (h : other ≠ path)
    (entries : List (List String × Entry)) (entry : Entry) :
    ((entries.map fun e => if e.1 == path then (path, entry) else e).find?
      fun e => e.1 == other) = entries.find? fun e => e.1 == other := by
  induction entries with
  | nil => rfl
  | cons e rest ih =>
    rw [List.map_cons, List.find?_cons, List.find?_cons, ih]
    by_cases he : e.1 = path
    · have ho : (path == other) = false := by simpa using Ne.symm h
      simp [he, ho]
    · have hp : (e.1 == path) = false := by simpa using he
      simp only [hp]
      rfl

theorem find_put_self {path : List String} (h : path ≠ []) (tree : Tree) (entry : Entry) :
    (tree.put path entry).find path = some entry := by
  unfold find put
  rw [if_neg h]
  by_cases hany : tree.entries.any fun e => e.1 == path
  · rw [if_pos hany]
    dsimp only
    rw [find_replaced_self hany, Option.map_some]
  · rw [if_neg hany]
    have hnone : tree.entries.find? (fun e => e.1 == path) = none := by
      rw [List.find?_eq_none]
      intro e he hp
      exact hany (List.any_eq_true.2 ⟨e, he, hp⟩)
    simp [List.find?_append, hnone]

theorem find_put_of_ne {path other : List String} (h : other ≠ path) (tree : Tree)
    (entry : Entry) : (tree.put path entry).find other = tree.find other := by
  unfold find put
  by_cases ho : other = []
  · rw [if_pos ho, if_pos ho]
  · rw [if_neg ho, if_neg ho]
    split
    · simp only [find_replaced_of_ne h]
    · simp [List.find?_append, Ne.symm h]

theorem working_put (tree : Tree) (path : List String) (entry : Entry) :
    (tree.put path entry).working = tree.working := by
  unfold put
  split <;> rfl

end Tree

def pathText (path : List String) : String := "/" ++ joinWith "/" path

def isAbsolute (path : String) : Bool :=
  match path.toList with
  | [] => false
  | c :: _ => c = '/'

def endsWithSlash (path : String) : Bool := path.toList.getLast? == some '/'

def pathNames (path : String) : List String :=
  ((splitOn '/' path.toList).filter fun cs => !cs.isEmpty).map String.ofList

/-- A name in a folder, or a path of its own if it is absolute. -/
def join (folder name : String) : String :=
  if isAbsolute name || folder.isEmpty then name
  else if endsWithSlash folder then folder ++ name
  else folder ++ "/" ++ name

/-- The longest name that an entry can have, in bytes. -/
def nameLimit : Nat := 255

/-- The longest path that can be walked, in bytes. -/
def pathLimit : Nat := 4095

/-- Whether a name is a step, which stays in a folder or leads up from it, and names no entry. -/
def isStep (name : String) : Bool := name == "." || name == ".."

/-- Follows one name out of a folder. No name leads out of a removed folder. -/
def enter (folder : Place) (name : String) : Except FileFault Place :=
  if name = "." then .ok folder
  else if name = ".." then .ok folder.up
  else if folder.removed ≠ 0 then .error .notFound
  else if nameLimit < name.utf8ByteSize then .error .nameTooLong
  else .ok ⟨folder.path ++ [name], 0⟩

/-- Follows names from a place; every place that is left must be a folder. -/
def walk (tree : Tree) : (here : Place) → List String → Except FileFault Place
  | here, [] => .ok here
  | here, name :: rest =>
    match tree.entryAt here with
    | none => .error .notFound
    | some .folder =>
      match enter here name with
      | .error e => .error e
      | .ok next => walk tree next rest
    | some _ => .error .notAFolder

/-- What is wrong with a path before it is walked. -/
def pathFault (path : String) : Option FileFault :=
  if path.toList.any fun c => c.toNat = 0 then some .zeroCharacter
  else if path.isEmpty then some .notFound
  else if pathLimit < path.utf8ByteSize then some .nameTooLong
  else none

/-- Walks from where a written path starts, unless there is something wrong with the path. -/
def walkFor (tree : Tree) (path : String) (names : List String) : Except FileFault Place :=
  match pathFault path with
  | some e => .error e
  | none => walk tree (if isAbsolute path then ⟨[], 0⟩ else tree.working) names

/-- Where a written path leads, whether something stands there or not. A closing slash counts as one
more step in place. -/
def locate (tree : Tree) (path : String) : Except FileFault Place :=
  walkFor tree path (pathNames path ++ (if endsWithSlash path then ["."] else []))

/-- The folder that holds the last name of a path, and that name. -/
def holder (tree : Tree) (path : String) : Except FileFault (Place × String) :=
  let names := pathNames path
  (walkFor tree path (names.dropLast ++ ["."])).map fun folder =>
    (folder, names.getLast?.getD ".")

def lookup (tree : Tree) (path : String) : Except FileFault Entry :=
  match locate tree path with
  | .error e => .error e
  | .ok place =>
    match tree.entryAt place with
    | some entry => .ok entry
    | none => .error .notFound

def pathExists (tree : Tree) (path : String) : Bool := (lookup tree path).isOk

def isFolder (tree : Tree) (path : String) : Bool :=
  match lookup tree path with
  | .ok .folder => true
  | _ => false

def readText (tree : Tree) (path : String) : Except FileFault String :=
  match lookup tree path with
  | .ok (.text content) => .ok content
  | .ok .folder => .error .isAFolder
  | .ok .bytes => .error .notText
  | .error e => .error e

def locateFolder (tree : Tree) (path : String) : Except FileFault Place :=
  match locate tree path with
  | .error e => .error e
  | .ok place =>
    match tree.entryAt place with
    | some .folder => .ok place
    | some _ => .error .notAFolder
    | none => .error .notFound

def listFolder (tree : Tree) (path : String) : Except FileFault (List String) :=
  (locateFolder tree path).map fun place =>
    if place.removed = 0 then tree.names place.path else []

def looking {α : Type} (look : Tree → Except FileFault α) : FileAction α :=
  fun tree => (look tree, tree)

def putting (place : List String) (entry : Entry) : FileAction Unit :=
  fun tree => (.ok (), tree.put place entry)

/-- Where a file of that path is or would be. A path that closes with a slash is that of a folder,
whatever stands there. -/
def filePlace (tree : Tree) (path : String) : Except FileFault (List String) :=
  match holder tree path with
  | .error e => .error e
  | .ok (folder, name) =>
    if isStep name || endsWithSlash path then .error .isAFolder
    else
      match enter folder name with
      | .error e => .error e
      | .ok place =>
        if tree.entryAt place = some .folder then .error .isAFolder else .ok place.path

/-- Writes a file, in place of an earlier one. -/
def writeText (path content : String) : FileAction Unit := do
  let place ← looking fun tree => filePlace tree path
  putting place (.text content)

def newFolderPlace (tree : Tree) (path : String) : Except FileFault (List String) :=
  match holder tree path with
  | .error e => .error e
  | .ok (folder, name) =>
    if isStep name then .error .alreadyExists
    else
      match enter folder name with
      | .error e => .error e
      | .ok place =>
        if (tree.entryAt place).isSome then .error .alreadyExists else .ok place.path

/-- Makes one folder; its parent must be there. -/
def makeFolder (path : String) : FileAction Unit := do
  let place ← looking fun tree => newFolderPlace tree path
  putting place .folder

/-- The parents of a path as text, the nearest first; the last is the root, or the empty path. -/
def parents (path : String) : List String :=
  let names := (pathNames path).filter (· != ".")
  let base := if isAbsolute path then "/" else
    match pathNames path with
    | "." :: _ => "."
    | _ => ""
  let inner := (List.range (names.length - 1)).reverse.map fun n =>
    join base (joinWith "/" (names.take (n + 1)))
  inner ++ (if names.isEmpty then [] else [base]) ++ (if base = "." then [""] else [])

/-- Makes the first folder of a list of paths, of which each is the parent of the one before it,
and all parents that are missing. -/
def makeFoldersAlong : List String → FileAction Unit
  | [] => throw .notFound
  | path :: parents =>
    if path.isEmpty then pure ()
    else fun tree =>
      match makeFolder path tree with
      | (.ok (), tree) => (.ok (), tree)
      | (.error .notFound, tree) =>
        match makeFoldersAlong parents tree with
        | (.error e, tree) => (.error e, tree)
        | (.ok (), tree) =>
          match makeFolder path tree with
          | (.ok (), tree) => (.ok (), tree)
          | (.error e, tree) => (if isFolder tree path then .ok () else .error e, tree)
      | (.error e, tree) => (if isFolder tree path then .ok () else .error e, tree)

def makeFolders (path : String) : FileAction Unit := makeFoldersAlong (path :: parents path)

/-- Removes a folder with all that it holds. What it holds goes first, so that a path which leads
through it may lead nowhere when its own turn comes; then the empty folder stays, and that is no
failure. -/
def removeFolder (path : String) : FileAction Unit := fun tree =>
  match locateFolder tree path with
  | .error e => (.error e, tree)
  | .ok ⟨folder, 0⟩ =>
    let tree := tree.clear folder
    match locate tree path with
    | .ok ⟨folder, 0⟩ => (.ok (), tree.erase folder)
    | _ => (.ok (), tree)
  | .ok _ => (.ok (), tree)

end NeuronKernels.FileTree
