import NeuronKernels.SettingsSources
import Mathlib.Data.List.Infix

/-!
# Which settings file is found

The folders that are searched are beginnings of the path of the working folder, the longest first
(`mem_searchedFolders_iff`, `pairwise_searchedFolders`), so the first file that is found is the
nearest one (`nearest_of_find`). What comes of a file depends only on what reading it gives
(`loadFile_eq`), and an empty file gives the defaults (`settingsOf_empty`). From that it follows for
all ways to obtain settings which file they are taken from (`settings_file_chosen`).
-/

namespace NeuronKernels.SettingsDiscovery
open FileTree SettingsProblems SettingsSources ToolSettings

/-- The settings file of a folder. -/
def fileIn (folder : List String) : String := pathText (folder ++ [fileName])

/-- The folder is the working folder or one of the five nearest above it. A working folder that has
been removed has no path any more, and then no folder is searched. -/
def Searched (tree : Tree) (folder : List String) : Prop :=
  ∃ working, tree.workingFolder = some working ∧ folder <+: working ∧
    working.length ≤ folder.length + 5

/-- There is a settings file in the folder, and all others that are searched and have one lie
above. -/
structure Nearest (tree : Tree) (folder : List String) : Prop where
  searched : Searched tree folder
  present : pathExists tree (fileIn folder) = true
  others_above : ∀ other, Searched tree other → pathExists tree (fileIn other) = true →
    other <+: folder

/-- The settings that come of what reading a file gives, with nothing else known of the file. -/
def settingsOf (environment : Environment) (overrides : List (String × String)) :
    Except FileFault String → Except SettingsError Settings
  | .error cause => .error (.unreadable cause)
  | .ok text =>
    match SettingsDocument.ofText text with
    | none => .error .malformed
    | some s => applyOverrides overrides (applyEnvironment environment s)

/-- Without an explicit path it is this file that is found, and loaded and resolved settings are
those of this file. -/
structure Chooses (tree : Tree) (environment : Environment) (overrides : List (String × String))
    (path : String) : Prop where
  found : findFile tree environment = .ok path
  loaded : load tree environment none overrides =
    settingsOf environment overrides (readText tree path)
  resolved : resolve tree environment none overrides =
    settingsOf environment overrides (readText tree path)

/-- Without an explicit path, no file is found, and none is loaded. -/
structure FindsNone (tree : Tree) (environment : Environment) (overrides : List (String × String))
    (e : SettingsError) : Prop where
  found : findFile tree environment = .error e
  loaded : load tree environment none overrides = .error e

theorem loadFile_eq (tree : Tree) (environment : Environment) (path : String)
    (overrides : List (String × String)) :
    loadFile tree environment path overrides =
      settingsOf environment overrides (readText tree path) := by
  unfold loadFile readFile
  cases readText tree path with
  | error cause => rfl
  | ok text =>
    simp only [settingsOf]
    cases SettingsDocument.ofText text <;> rfl

theorem settingsOf_empty (environment : Environment) (overrides : List (String × String)) :
    settingsOf environment overrides (.ok "") =
      applyOverrides overrides (applyEnvironment environment defaults) := by
  have nothing : SettingsDocument.ofText "" = some defaults := by decide +kernel
  simp only [settingsOf, nothing]

theorem Chooses.of_found {tree : Tree} {environment : Environment} {path : String}
    (found : findFile tree environment = .ok path) (overrides : List (String × String)) :
    Chooses tree environment overrides path where
  found := found
  loaded := by simp only [load, found, loadFile_eq]
  resolved := by simp only [resolve, found, loadFile_eq]

theorem FindsNone.of_found {tree : Tree} {environment : Environment} {e : SettingsError}
    (found : findFile tree environment = .error e) (overrides : List (String × String)) :
    FindsNone tree environment overrides e where
  found := found
  loaded := by simp only [load, found]

theorem findFile_named {environment : Environment} {path : String}
    (named : lookupVariable pathVariable environment = some path) (tree : Tree) :
    findFile tree environment =
      if pathExists tree path then .ok path else .error (.noFileNamed path) := by
  simp only [findFile, named]

/-- From the root every name is followed without a look at the working folder. -/
theorem walk_of_entries_eq {tree other : Tree} (same : other.entries = tree.entries) (here : Place)
    (names : List String) : walk other here names = walk tree here names := by
  have entry : other.entryAt = tree.entryAt := by
    funext place
    simp only [Tree.entryAt, Tree.find, same]
  induction names generalizing here with
  | nil => rfl
  | cons name rest ih => simp only [walk, entry, ih]

theorem lookup_of_absolute {path : String} (absolute : isAbsolute path = true) (tree : Tree)
    (place : Place) : lookup { tree with working := place } path = lookup tree path := by
  have entry : ({ tree with working := place } : Tree).entryAt = tree.entryAt := rfl
  have entries : ({ tree with working := place } : Tree).entries = tree.entries := rfl
  have walked := walk_of_entries_eq entries ⟨[], 0⟩
  have there : locate { tree with working := place } path = locate tree path := by
    simp only [locate, walkFor, absolute, if_true, walked]
  simp only [lookup, there, entry]

/-- With a file that the environment names, a tree counts only for what this path leads to. -/
theorem resolve_named {environment : Environment} {path : String}
    (named : lookupVariable pathVariable environment = some path) {tree other : Tree}
    (same : lookup other path = lookup tree path) (overrides : List (String × String)) :
    resolve other environment none overrides = resolve tree environment none overrides := by
  have there : pathExists other path = pathExists tree path := by simp only [pathExists, same]
  have text : readText other path = readText tree path := by unfold readText; rw [same]
  cases present : pathExists tree path <;>
    simp [resolve, findFile_named named, loadFile_eq, there, text, present]

theorem upwards_concat (count : Nat) (folder : List String) (name : String) :
    upwards (count + 1) (folder ++ [name]) = (folder ++ [name]) :: upwards count folder := by
  cases folder with
  | nil => rfl
  | cons first rest =>
    rw [List.cons_append, upwards, ← List.cons_append, List.dropLast_concat]

theorem mem_upwards_iff {count : Nat} {working folder : List String} :
    folder ∈ upwards count working ↔
      folder <+: working ∧ working.length ≤ folder.length + count := by
  induction count generalizing working with
  | zero =>
    rw [upwards, List.mem_singleton]
    constructor
    · rintro rfl
      exact ⟨List.prefix_refl _, le_rfl⟩
    · rintro ⟨above, long⟩
      exact above.eq_of_length_le long
  | succ count ih =>
    induction working using List.reverseRecOn with
    | nil => simp [upwards]
    | append_singleton rest name _ =>
      rw [upwards_concat, List.mem_cons, ih, List.prefix_concat_iff, List.length_append,
        List.length_singleton]
      constructor
      · rintro (rfl | ⟨above, near⟩)
        · exact ⟨.inl rfl, by simp⟩
        · exact ⟨.inr above, by omega⟩
      · rintro ⟨rfl | above, near⟩
        · exact .inl rfl
        · exact .inr ⟨above, by omega⟩

/-- The nearest folder comes first. -/
theorem pairwise_upwards (count : Nat) (working : List String) :
    (upwards count working).Pairwise fun near far => far <+: near := by
  induction count generalizing working with
  | zero => exact List.pairwise_singleton _ _
  | succ count ih =>
    induction working using List.reverseRecOn with
    | nil => exact List.pairwise_singleton _ _
    | append_singleton rest name _ =>
      rw [upwards_concat, List.pairwise_cons]
      refine ⟨fun far mem => ?_, ih rest⟩
      exact (mem_upwards_iff.mp mem).1.trans (List.prefix_append rest [name])

/-- The folders that are searched, in their order. -/
def searchedFolders (tree : Tree) : List (List String) :=
  tree.workingFolder.elim [] (upwards searchedParents)

theorem searchPlaces_eq (tree : Tree) : searchPlaces tree = (searchedFolders tree).map fileIn := by
  unfold searchPlaces searchedFolders
  cases tree.workingFolder <;> rfl

theorem mem_searchedFolders_iff {tree : Tree} {folder : List String} :
    folder ∈ searchedFolders tree ↔ Searched tree folder := by
  unfold searchedFolders Searched
  cases tree.workingFolder with
  | none => simp
  | some working => simp [mem_upwards_iff, searchedParents]

theorem pairwise_searchedFolders (tree : Tree) :
    (searchedFolders tree).Pairwise fun near far => far <+: near := by
  unfold searchedFolders
  cases tree.workingFolder with
  | none => exact List.Pairwise.nil
  | some working => exact pairwise_upwards searchedParents working

theorem nearest_of_find {tree : Tree} {folder : List String}
    (found : (searchedFolders tree).find? (fun f => pathExists tree (fileIn f)) = some folder) :
    Nearest tree folder := by
  obtain ⟨present, nearer, farther, split, without⟩ := List.find?_eq_some_iff_append.mp found
  have ordered := pairwise_searchedFolders tree
  rw [split, List.pairwise_append, List.pairwise_cons] at ordered
  refine ⟨mem_searchedFolders_iff.mp (List.mem_of_find?_eq_some found), present, ?_⟩
  intro other searched there
  rw [← mem_searchedFolders_iff, split, List.mem_append, List.mem_cons] at searched
  obtain near | rfl | far := searched
  · have absent := without other near
    simp [there] at absent
  · exact List.prefix_refl _
  · exact ordered.2.1.1 other far

/-- A search ends at the nearest file, or finds that there is none. -/
theorem findFile_searched {environment : Environment}
    (unset : lookupVariable pathVariable environment = none) (tree : Tree) :
    (∃ folder, Nearest tree folder ∧ findFile tree environment = .ok (fileIn folder)) ∨
      (∀ folder, Searched tree folder → pathExists tree (fileIn folder) = false) ∧
        findFile tree environment = .error (.noFileFound (searchPlaces tree)) := by
  have search : (searchPlaces tree).find? (pathExists tree) =
      ((searchedFolders tree).find? fun f => pathExists tree (fileIn f)).map fileIn := by
    rw [searchPlaces_eq, List.find?_map]
    rfl
  cases found : (searchedFolders tree).find? fun f => pathExists tree (fileIn f) with
  | some folder =>
    refine .inl ⟨folder, nearest_of_find found, ?_⟩
    simp only [findFile, unset, search, found, Option.map_some]
  | none =>
    refine .inr ⟨fun folder searched => ?_, ?_⟩
    · simpa using List.find?_eq_none.mp found folder (mem_searchedFolders_iff.mpr searched)
    · simp only [findFile, unset, search, found, Option.map_none]

/-- An explicit path is the only file that is looked at. Without one, a path that the environment
names is the only one, and it must be there; the folders above the working folder do not matter
then, nor does the working folder itself if the path is absolute. Without that too, the nearest
settings file among those that are searched is taken. If there is none, a file cannot be loaded, and
settings are resolved as those of an empty file. -/
theorem settings_file_chosen (tree : Tree) (environment : Environment)
    (overrides : List (String × String)) :
    (∀ path, resolve tree environment (some path) overrides =
        settingsOf environment overrides (readText tree path) ∧
      ∀ cause, readText tree path = .error cause →
        resolve tree environment (some path) overrides = .error (.unreadable cause)) ∧
    (∀ path, lookupVariable pathVariable environment = some path →
      (pathExists tree path = true → Chooses tree environment overrides path) ∧
      (pathExists tree path = false →
        FindsNone tree environment overrides (.noFileNamed path) ∧
          resolve tree environment none overrides = .error (.noFileNamed path)) ∧
      (∀ other, lookup other path = lookup tree path →
        resolve other environment none overrides = resolve tree environment none overrides) ∧
      (isAbsolute path = true → ∀ place,
        resolve { tree with working := place } environment none overrides =
          resolve tree environment none overrides)) ∧
    (lookupVariable pathVariable environment = none →
      (∃ folder, Nearest tree folder ∧ Chooses tree environment overrides (fileIn folder)) ∨
      (∀ folder, Searched tree folder → pathExists tree (fileIn folder) = false) ∧
        FindsNone tree environment overrides (.noFileFound (searchPlaces tree)) ∧
        ∀ other path, readText other path = .ok "" →
          resolve tree environment none overrides =
            resolve other environment (some path) overrides) := by
  have explicit (tree : Tree) (path : String) : resolve tree environment (some path) overrides =
      settingsOf environment overrides (readText tree path) := loadFile_eq ..
  refine ⟨fun path => ⟨explicit tree path, ?_⟩, fun path named => ⟨?_, ?_, ?_, ?_⟩, fun unset => ?_⟩
  · intro cause unreadable
    rw [explicit, unreadable, settingsOf]
  · intro there
    exact .of_found (by rw [findFile_named named, there, if_pos rfl]) overrides
  · intro absent
    have found : findFile tree environment = .error (.noFileNamed path) := by
      rw [findFile_named named, absent, if_neg Bool.false_ne_true]
    exact ⟨.of_found found overrides, by simp only [resolve, found]⟩
  · intro other same
    exact resolve_named named same overrides
  · intro absolute place
    exact resolve_named named (lookup_of_absolute absolute tree place) overrides
  · obtain ⟨folder, nearest, found⟩ | ⟨nowhere, found⟩ := findFile_searched unset tree
    · exact .inl ⟨folder, nearest, .of_found found overrides⟩
    · refine .inr ⟨nowhere, .of_found found overrides, fun other path empty => ?_⟩
      rw [explicit, empty, settingsOf_empty]
      simp only [resolve, found]

/-- A working folder seven folders down, with settings files five and six folders above it. -/
def deepTree : Tree where
  entries :=
    [(["a"], .folder), (["a", fileName], .text ""), (["a", "b"], .folder),
     (["a", "b", fileName], .text "[standalone]\nname = \"near\"\n"), (["a", "b", "c"], .folder),
     (["a", "b", "c", "d"], .folder), (["a", "b", "c", "d", "e"], .folder),
     (["a", "b", "c", "d", "e", "f"], .folder), (["a", "b", "c", "d", "e", "f", "g"], .folder)]
  working := ⟨["a", "b", "c", "d", "e", "f", "g"], 0⟩

/-- The file five folders above is found. One folder further down neither file is, and the settings
are those of the empty one. A file that the environment names is taken in both folders, and no other
one in its place if it is missing. -/
theorem fifth_folder_found :
    let below := { deepTree with working := ⟨deepTree.working.path ++ ["h"], 0⟩ }
    let naming (path : String) := [(pathVariable, path)]
    lookupVariable pathVariable [] = none ∧
      Chooses deepTree [] [] "/a/b/kernelnet.toml" ∧
      FindsNone below [] [] (.noFileFound (searchPlaces below)) ∧
      resolve below [] none [] = resolve deepTree [] (some "/a/kernelnet.toml") [] ∧
      Chooses deepTree (naming "/a/kernelnet.toml") [] "/a/kernelnet.toml" ∧
      resolve below (naming "/a/kernelnet.toml") none [] =
        resolve deepTree (naming "/a/kernelnet.toml") none [] ∧
      resolve deepTree (naming "/kernelnet.toml") none [] =
        .error (.noFileNamed "/kernelnet.toml") := by
  intro below naming
  obtain ⟨-, -, here⟩ := settings_file_chosen deepTree [] []
  obtain ⟨-, -, there⟩ := settings_file_chosen below [] []
  obtain ⟨-, present, -⟩ := settings_file_chosen deepTree (naming "/a/kernelnet.toml") []
  obtain ⟨-, missing, -⟩ := settings_file_chosen deepTree (naming "/kernelnet.toml") []
  have found : findFile deepTree [] = .ok "/a/b/kernelnet.toml" := by decide +kernel
  have lost : (findFile below []).isOk = false := by decide +kernel
  refine ⟨rfl, ?_, ?_⟩
  · obtain ⟨folder, -, chosen⟩ | ⟨-, nothing, -⟩ := here rfl
    · obtain same := Except.ok.inj (found.symm.trans chosen.found)
      exact same ▸ chosen
    · cases found.symm.trans nothing.found
  · obtain ⟨folder, -, chosen⟩ | ⟨-, nothing, empty⟩ := there rfl
    · rw [chosen.found] at lost
      cases lost
    · obtain ⟨chosen, -, -, anywhere⟩ := present _ rfl
      obtain ⟨-, refused, -⟩ := missing _ rfl
      exact ⟨nothing, empty deepTree "/a/kernelnet.toml" (by decide +kernel),
        chosen (by decide +kernel), anywhere (by decide) _, (refused (by decide +kernel)).2⟩

end NeuronKernels.SettingsDiscovery
