import NeuronKernels.ExportCommand
import NeuronKernels.Proofs.DeviceRequests
import NeuronKernels.Proofs.FileChanges
import NeuronKernels.Proofs.WordPieces

/-!
# Where the export command writes

The command reads everything before it writes anything, so a fault in what it reads leaves the tree
as it was. What it writes are two files named after an identifier. Such a name is neither a step nor
a path, so both files stand right in the output folder (`stands_writeFiles`), and besides them only
that folder and its missing parents are made (`writesOnly_writeStandalone`).
-/

namespace NeuronKernels.ExportConfinement
open BinaryFloat ComputeDevice ExportCommand FileChanges FileTree KernelNetwork NetworkErrors
open NetworkFiles SettingsProblems StandaloneSource TextPieces ToolSettings WordPieces

theorem finish_eq_export {given found : Given} (h : finish given = .export found) :
    (valueOf .network found).isSome ∧ (valueOf .context found).isSome := by
  unfold finish at h
  split at h
  · rename_i hgiven
    cases h
    exact Bool.and_eq_true_iff.mp hgiven
  · cases h

theorem readArguments_eq_export {given found : Given} {arguments : List String}
    (h : readArguments given arguments = .export found) :
    (valueOf .network found).isSome ∧ (valueOf .context found).isSome := by
  fun_induction readArguments given arguments
  case case1 | case2 => exact finish_eq_export h
  case case10 ih | case14 ih | case17 ih => exact ih h
  all_goals cases h

/-- A text of letters, digits and underscores that does not start with a digit. -/
def Identifier (name : String) : Prop :=
  (∀ c ∈ name.toList, WordChar c) ∧ ∃ c, name.toList.head? = some c ∧ ¬('0' ≤ c ∧ c ≤ '9')

theorem not_digit_of_letter {c : Char} (h : (c == '_' || isAsciiLetter c) = true) :
    ¬('0' ≤ c ∧ c ≤ '9') := by
  simp only [isAsciiLetter, Char.le_def, UInt32.le_iff_toNat_le, Bool.or_eq_true,
    Bool.and_eq_true, decide_eq_true_eq, beq_iff_eq] at h ⊢
  obtain rfl | h := h
  · decide
  · simp only [Char.toNat, Char.reduceVal, UInt32.reduceToNat] at h ⊢
    omega

theorem identifier_of_isIdentifier {name : String} (h : isIdentifier name = true) :
    Identifier name := by
  unfold isIdentifier at h
  unfold Identifier
  cases hname : name.toList with
  | nil =>
    rw [hname] at h
    cases h
  | cons c cs =>
    rw [hname] at h
    obtain ⟨hfirst, hrest⟩ := Bool.and_eq_true_iff.mp h
    refine ⟨?_, c, rfl, not_digit_of_letter hfirst⟩
    intro d hd
    rw [← isWordChar_iff, KernelLayout.isWordChar]
    obtain rfl | hd := List.mem_cons.mp hd
    · simp only [Bool.or_eq_true] at hfirst ⊢
      tauto
    · have hword := List.all_eq_true.mp hrest d hd
      simp only [Bool.or_eq_true] at hword ⊢
      tauto

theorem identifier_of_validate {settings : Settings} (h : validate settings = .ok ()) :
    Identifier settings.standalone.name := by
  have hproblems := (DeviceRequests.validate_ok_iff settings).mp h
  have hstandalone : standaloneProblems settings.standalone = [] := by
    simp only [problems, List.append_eq_nil_iff] at hproblems
    exact hproblems.1.2
  unfold standaloneProblems at hstandalone
  split at hstandalone
  · cases hstandalone
  · split at hstandalone
    · rename_i hname
      exact identifier_of_isIdentifier hname
    · cases hstandalone

theorem Identifier.entryName {name ending : String} (h : Identifier name)
    (hslash : '/' ∉ ending.toList) : EntryName (name ++ ending) := by
  obtain ⟨hword, c, hc, -⟩ := h
  have hchars : (name ++ ending).toList = name.toList ++ ending.toList := String.toList_append
  have hhead : (name ++ ending).toList.head? = some c := by
    rw [hchars, List.head?_append, hc, Option.some_or]
  have hstart : WordChar c := hword c (List.mem_of_mem_head? hc)
  have hpoint : ∀ rest, name ++ ending ≠ String.ofList ('.' :: rest) := by
    intro rest heq
    rw [heq, String.toList_ofList, List.head?_cons] at hhead
    cases hhead
    exact absurd hstart (by decide)
  refine ⟨?_, ?_, ?_⟩
  · intro hnil
    rw [hnil] at hhead
    cases hhead
  · rw [hchars, List.mem_append, not_or]
    exact ⟨fun hmem => absurd (hword _ hmem) (by decide), hslash⟩
  · have hstay : name ++ ending ≠ "." := hpoint []
    have hup : name ++ ending ≠ ".." := hpoint ['.']
    simp [isStep, hstay, hup]

/-- A file with its content stands right in a folder, and the path of the folder with the name
behind it leads to the file. -/
structure Stands (tree : Tree) (dir : String) (folder : List String) (file : String × String) :
    Prop where
  inFolder : locateFolder tree (folderPath dir) = .ok ⟨folder, 0⟩
  located : locate tree (join dir file.1) = .ok ⟨folder ++ [file.1], 0⟩
  content : tree.find (folder ++ [file.1]) = some (.text file.2)

theorem Stands.readText {tree : Tree} {dir : String} {folder : List String}
    {file : String × String} (h : Stands tree dir folder file) :
    readText tree (join dir file.1) = .ok file.2 := by
  simp [FileTree.readText, lookup, h.located, Tree.entryAt, h.content]

theorem Stands.folder_unique {tree : Tree} {dir : String} {folder folder' : List String}
    {file file' : String × String} (h : Stands tree dir folder file)
    (h' : Stands tree dir folder' file') : folder = folder' := by
  have heq := h.inFolder.symm.trans h'.inFolder
  cases heq
  rfl

/-- The entries that are written for files in a folder. -/
def fileWrites (dir : String) (files : List (String × String)) : List (String × Entry) :=
  files.map fun file => (join dir file.1, .text file.2)

/-- The entries that are made for a folder: the folder itself and its parents. -/
def folderWrites (dir : String) : List (String × Entry) :=
  (dir :: parents dir).map fun path => (path, .folder)

theorem writeFiles_cons (dir : String) (file : String × String) (files : List (String × String))
    (tree : Tree) :
    writeFiles dir (file :: files) tree =
      match writeText (join dir file.1) file.2 tree with
      | (.error cause, tree) => ⟨.error (.file cause), tree, []⟩
      | (.ok (), tree) =>
        let others := writeFiles dir files tree
        ⟨others.result.map (join dir file.1 :: ·), others.tree,
          exportEvent "Wrote standalone source" [("path", .plain (join dir file.1))] ::
            others.events⟩ := by
  rfl

theorem writesOnly_writeFiles (dir : String) (files : List (String × String)) (tree : Tree) :
    WritesOnly (fileWrites dir files) tree (writeFiles dir files tree).tree := by
  induction files generalizing tree with
  | nil => exact .refl tree
  | cons file files ih =>
    have hfirst : WritesOnly (fileWrites dir (file :: files)) tree
        (writeText (join dir file.1) file.2 tree).2 :=
      (writesOnly_writeText (join dir file.1) file.2 tree).mono (by simp [fileWrites])
    rw [writeFiles_cons]
    dsimp only
    cases hwrite : writeText (join dir file.1) file.2 tree with
    | mk result next =>
      rw [hwrite] at hfirst
      cases result with
      | error cause => exact hfirst
      | ok => exact hfirst.trans ((ih next).mono (by simp [fileWrites]))

theorem writeFiles_result (dir : String) (files : List (String × String)) (tree : Tree) :
    (writeFiles dir files tree).result = .ok (files.map fun file => join dir file.1) ∨
      ∃ cause, (writeFiles dir files tree).result = .error (.file cause) := by
  induction files generalizing tree with
  | nil => exact .inl rfl
  | cons file files ih =>
    rw [writeFiles_cons]
    dsimp only
    cases writeText (join dir file.1) file.2 tree with
    | mk result next =>
      cases result with
      | error cause => exact .inr ⟨cause, rfl⟩
      | ok =>
        obtain hok | ⟨cause, herror⟩ := ih next
        · exact .inl (by simp [hok, Except.map])
        · exact .inr ⟨cause, by simp [herror, Except.map]⟩

theorem stands_writeText {dir : String} {file : String × String} {tree next : Tree}
    (hname : EntryName file.1) (hwrite : writeText (join dir file.1) file.2 tree = (.ok (), next)) :
    ∃ folder, Stands next dir folder file := by
  rw [writeText_eq] at hwrite
  cases hplace : filePlace tree (join dir file.1) with
  | error e =>
    rw [hplace] at hwrite
    cases hwrite
  | ok place =>
    rw [hplace] at hwrite
    cases hwrite
    obtain ⟨hlocate, hne, hold⟩ := filePlace_eq_ok hplace
    obtain ⟨folder, hfolder, rfl⟩ := filePlace_join hname hplace
    have hput := Extends.put hold (.text file.2)
    exact ⟨folder, hput.locateFolder hfolder, hput.locate hlocate,
      Tree.find_put_self hne tree (.text file.2)⟩

/-- A file is not written over by files of other names in the same folder. -/
theorem Stands.after_writes {dir : String} {folder : List String} {file : String × String}
    {files : List (String × String)} {tree after : Tree} (h : Stands tree dir folder file)
    (hwrites : WritesOnly (fileWrites dir files) tree after)
    (hothers : ∀ other ∈ files, ∃ folder, Stands after dir folder other)
    (hfresh : file.1 ∉ files.map Prod.fst) : Stands after dir folder file := by
  refine ⟨hwrites.locateFolder h.inFolder, hwrites.locate h.located, ?_⟩
  rw [← h.content]
  by_contra hchanged
  obtain ⟨w, hw, hlocate, -⟩ := hwrites.changed _ hchanged
  obtain ⟨other, hother, rfl⟩ := List.mem_map.mp hw
  obtain ⟨folder', hstands⟩ := hothers other hother
  have hplace : folder' ++ [other.1] = folder ++ [file.1] := by
    simpa using hstands.located.symm.trans hlocate
  have hname : other.1 = file.1 := by simpa using congrArg List.getLast? hplace
  exact hfresh (hname ▸ List.mem_map_of_mem hother)

/-- Files of different names that could all be written stand all in the folder. -/
theorem stands_writeFiles {dir : String} {files : List (String × String)} {tree : Tree}
    {paths : List String} (hnames : ∀ file ∈ files, EntryName file.1)
    (hdistinct : (files.map Prod.fst).Nodup)
    (hr : (writeFiles dir files tree).result = .ok paths) :
    ∀ file ∈ files, ∃ folder, Stands (writeFiles dir files tree).tree dir folder file := by
  induction files generalizing tree paths with
  | nil => nofun
  | cons file files ih =>
    obtain ⟨hname, hnames⟩ := List.forall_mem_cons.mp hnames
    obtain ⟨hfresh, hdistinct⟩ := List.nodup_cons.mp hdistinct
    rw [writeFiles_cons] at hr ⊢
    cases hwrite : writeText (join dir file.1) file.2 tree with
    | mk result next =>
      rw [hwrite] at hr
      cases result with
      | error cause => cases hr
      | ok =>
        dsimp only at hr ⊢
        cases hresult : (writeFiles dir files next).result with
        | error e =>
          rw [hresult] at hr
          cases hr
        | ok others =>
          have hothers := ih hnames hdistinct hresult
          obtain ⟨folder, hstands⟩ := stands_writeText hname hwrite
          have hkept := hstands.after_writes (writesOnly_writeFiles dir files next) hothers hfresh
          exact List.forall_mem_cons.mpr ⟨⟨folder, hkept⟩, hothers⟩

theorem writesOnly_writeStandalone {p : Precision} {δ : Type} (s : StandaloneSettings)
    (token : String) (n : Network p δ) (tree : Tree) :
    WritesOnly (folderWrites s.outputDir ++
        fileWrites s.outputDir (n.standalone s.name token s.constOnly))
      tree (writeStandalone s token n tree).tree := by
  unfold writeStandalone
  split
  · exact .refl tree
  · rename_i files hfiles
    have hfolders := (writesOnly_makeFoldersAlong (s.outputDir :: parents s.outputDir) tree).mono
      (List.subset_append_left (folderWrites s.outputDir)
        (fileWrites s.outputDir (n.standalone s.name token s.constOnly)))
    change WritesOnly _ tree (makeFolders s.outputDir tree).2 at hfolders
    cases hmade : makeFolders s.outputDir tree with
    | mk result next =>
      rw [hmade] at hfolders
      cases result with
      | error cause => exact hfolders
      | ok =>
        exact hfolders.trans ((writesOnly_writeFiles s.outputDir _ next).mono
          (List.subset_append_right _ _))

theorem standalone_files {p : Precision} {δ : Type} {n : Network p δ} (hn : n.feedKernels ≠ [])
    (name token : String) (constOnly : Bool) :
    ∃ source header, n.standalone name token constOnly =
      [(name ++ ".c", source), (name ++ ".h", header)] := by
  unfold Network.standalone files
  dsimp only
  split
  · rename_i hnil
    exact absurd hnil hn
  · exact ⟨_, _, rfl⟩

theorem writeStandalone_of_nil {p : Precision} {δ : Type} {n : Network p δ}
    (hn : n.feedKernels = []) (s : StandaloneSettings) (token : String) (tree : Tree) :
    (writeStandalone s token n tree).result = .ok [] ∧
      (writeStandalone s token n tree).tree = tree := by
  have hfiles : n.standalone s.name token s.constOnly = [] := by
    unfold Network.standalone files
    rw [hn]
  rw [writeStandalone, hfiles]
  exact ⟨rfl, rfl⟩

/-- Writing the pair of files fails, or both stand in the output folder. -/
theorem writeStandalone_of_pair {p : Precision} {δ : Type} {n : Network p δ}
    {s : StandaloneSettings} {token source header : String} (hname : Identifier s.name)
    (hfiles : n.standalone s.name token s.constOnly =
      [(s.name ++ ".c", source), (s.name ++ ".h", header)]) (tree : Tree) :
    let written := writeStandalone s token n tree
    (∃ cause, written.result = .error (.file cause)) ∨
      written.result = .ok [join s.outputDir (s.name ++ ".c"), join s.outputDir (s.name ++ ".h")] ∧
        ∃ folder, Stands written.tree s.outputDir folder (s.name ++ ".c", source) ∧
          Stands written.tree s.outputDir folder (s.name ++ ".h", header) := by
  intro written
  let pair := [(s.name ++ ".c", source), (s.name ++ ".h", header)]
  have hwritten : (∃ cause, written.result = .error (.file cause)) ∨
      ∃ next, written.result = (writeFiles s.outputDir pair next).result ∧
        written.tree = (writeFiles s.outputDir pair next).tree := by
    simp only [written, writeStandalone, hfiles]
    cases makeFolders s.outputDir tree with
    | mk result next =>
      cases result with
      | error cause => exact .inl ⟨cause, rfl⟩
      | ok => exact .inr ⟨next, rfl, rfl⟩
  obtain hfailed | ⟨next, hresult, htree⟩ := hwritten
  · exact .inl hfailed
  · rw [hresult, htree]
    obtain hok | hfailed := writeFiles_result s.outputDir pair next
    · have hnames : ∀ file ∈ pair, EntryName file.1 := by
        simp only [pair, List.forall_mem_cons]
        exact ⟨hname.entryName (by decide), hname.entryName (by decide), nofun⟩
      have hdistinct : (pair.map Prod.fst).Nodup := by
        simp [pair]
      have hstands := stands_writeFiles hnames hdistinct hok
      obtain ⟨folder, hsource⟩ := hstands _ List.mem_cons_self
      obtain ⟨folder', hheader⟩ := hstands _ (List.mem_cons_of_mem _ List.mem_cons_self)
      obtain rfl := hsource.folder_unique hheader
      exact .inr ⟨hok, folder, hsource, hheader⟩
    · exact .inl hfailed

def settingsOf (s : Surroundings) (given : Given) (tree : Tree) : Except SettingsError Settings :=
  SettingsSources.resolve tree s.environment (valueOf .config given) (overridesOf given)

/-- The settings, the context or the network cannot be read, or the settings make no sense. -/
inductive Faulty (s : Surroundings) (given : Given) (contextPath networkPath : String)
    (tree : Tree) : Prop
  | settings {e : SettingsError} (h : settingsOf s given tree = .error e)
  | unsound {settings : Settings} {e : SettingsError} (h : settingsOf s given tree = .ok settings)
      (refused : validate settings = .error e)
  | context {e : ArenaSnapshot.SnapshotError}
      (h : (loadArena .double tree contextPath).1 = .error e)
  | network {n : Network .double Portable} {e : NetworkError}
      (h : (loadNetwork tree networkPath n).result = .error e)

/-- The settings make sense and the network has the context and the kernels of the files. -/
structure Reads (s : Surroundings) (given : Given) (contextPath networkPath : String)
    (tree : Tree) (settings : Settings) (n : Network .double Portable) : Prop where
  resolved : settingsOf s given tree = .ok settings
  sound : validate settings = .ok ()
  loaded : ∃ a, (loadArena .double tree contextPath).1 = .ok a ∧
    ∃ events, loadNetwork tree networkPath (Network.ofArena a) = ⟨.ok (), n, events⟩

theorem result_loadNetwork {p : Precision} {δ : Type} (tree : Tree) (path : String)
    (m n : Network p δ) : (loadNetwork tree path m).result = (loadNetwork tree path n).result := by
  unfold loadNetwork
  cases readText tree path with
  | error cause => rfl
  | ok text =>
    unfold Network.loadText
    dsimp only
    cases StoredNetwork.NetworkRecord.ofText text <;> rfl

theorem readSettings_eq_ok_iff {s : Surroundings} {given : Given} {tree : Tree}
    {settings : Settings} :
    readSettings s given tree = .ok settings ↔
      settingsOf s given tree = .ok settings ∧ validate settings = .ok () := by
  unfold readSettings settingsOf
  cases SettingsSources.resolve tree s.environment (valueOf .config given)
    (overridesOf given) with
  | error e => simp
  | ok resolved =>
    dsimp only
    constructor
    · intro h
      cases hvalid : validate resolved with
      | error e =>
        rw [hvalid] at h
        cases h
      | ok =>
        rw [hvalid] at h
        cases h
        exact ⟨rfl, hvalid⟩
    · rintro ⟨h, hvalid⟩
      cases h
      rw [hvalid]

section
variable {s : Surroundings} {given : Given} {contextPath networkPath : String}
  (hcontext : valueOf .context given = some contextPath)
  (hnetwork : valueOf .network given = some networkPath)
include hcontext hnetwork

theorem readNetwork_eq_ok_iff {tree : Tree} {n : Network .double Portable} :
    (readNetwork given tree).1 = .ok n ↔
      ∃ a, (loadArena .double tree contextPath).1 = .ok a ∧
        ∃ events, loadNetwork tree networkPath (Network.ofArena a) = ⟨.ok (), n, events⟩ := by
  rw [readNetwork, hcontext, hnetwork, Option.getD_some, Option.getD_some]
  dsimp only
  cases loadArena .double tree contextPath with
  | mk result events =>
    cases result with
    | error e => simp
    | ok a =>
      dsimp only
      cases hloaded : (loadNetwork tree networkPath (Network.ofArena a) :
          Outcome .double Portable Unit) with
      | mk result network more =>
        cases result with
        | error e => simp [hloaded]
        | ok => simp [hloaded]

theorem reads_iff {tree : Tree} {settings : Settings} {n : Network .double Portable} :
    Reads s given contextPath networkPath tree settings n ↔
      readSettings s given tree = .ok settings ∧ (readNetwork given tree).1 = .ok n := by
  rw [readSettings_eq_ok_iff, readNetwork_eq_ok_iff hcontext hnetwork]
  exact ⟨fun h => ⟨⟨h.resolved, h.sound⟩, h.loaded⟩, fun h => ⟨h.1.1, h.1.2, h.2⟩⟩

end

theorem Reads.not_faulty {s : Surroundings} {given : Given} {contextPath networkPath : String}
    {tree : Tree} {settings : Settings} {n : Network .double Portable}
    (h : Reads s given contextPath networkPath tree settings n) :
    ¬Faulty s given contextPath networkPath tree := by
  obtain ⟨hresolved, hsound, a, harena, events, hloaded⟩ := h
  intro hfault
  cases hfault with
  | settings hr =>
    rw [hresolved] at hr
    cases hr
  | unsound hr refused =>
    rw [hresolved] at hr
    cases hr
    rw [hsound] at refused
    cases refused
  | context hr =>
    rw [harena] at hr
    cases hr
  | network hr =>
    rw [result_loadNetwork tree networkPath _ (Network.ofArena a), hloaded] at hr
    cases hr

theorem reads_of_not_faulty {s : Surroundings} {given : Given} {contextPath networkPath : String}
    {tree : Tree} (h : ¬Faulty s given contextPath networkPath tree) :
    ∃ settings n, Reads s given contextPath networkPath tree settings n := by
  cases hresolved : settingsOf s given tree with
  | error e => exact absurd (.settings hresolved) h
  | ok settings =>
    cases hsound : validate settings with
    | error e => exact absurd (.unsound hresolved hsound) h
    | ok =>
      cases harena : (loadArena .double tree contextPath).1 with
      | error e => exact absurd (.context harena) h
      | ok a =>
        cases hloaded : (loadNetwork tree networkPath (Network.ofArena a) :
            Outcome .double Portable Unit) with
        | mk result n events =>
          cases result with
          | error e => exact absurd (.network (congrArg Outcome.result hloaded)) h
          | ok => exact ⟨settings, n, hresolved, hsound, a, harena, events, hloaded⟩

theorem run_of_settings {s : Surroundings} {given : Given} {tree : Tree} {settings : Settings}
    (h : readSettings s given tree = .ok settings) :
    let done := runExport s given tree
    let exported := exportWith s given settings tree
    done.tree = exported.2.1 ∧
      (∀ failure, exported.1 = .error failure →
        done.exit = 1 ∧ done.output = "" ∧ done.failure = some failure) ∧
      ∀ paths, exported.1 = .ok paths →
        done.exit = 0 ∧ done.output = concat (paths.map fun path => path ++ "\n") := by
  unfold runExport
  rw [h]
  dsimp only
  generalize exportWith s given settings tree = exported
  obtain ⟨result, after, events⟩ := exported
  cases result with
  | error failure => exact ⟨rfl, fun f hf => by cases hf; exact ⟨rfl, rfl, rfl⟩, nofun⟩
  | ok paths => exact ⟨rfl, nofun, fun found hfound => by cases hfound; exact ⟨rfl, rfl⟩⟩

theorem exportWith_of_error {s : Surroundings} {given : Given} {tree : Tree} {failure : Failure}
    (hn : (readNetwork given tree).1 = .error failure) (settings : Settings) :
    (exportWith s given settings tree).1 = .error failure ∧
      (exportWith s given settings tree).2.1 = tree := by
  unfold exportWith
  cases hread : readNetwork given tree with
  | mk result events =>
    rw [hread] at hn
    cases hn
    exact ⟨rfl, rfl⟩

theorem exportWith_of_read {s : Surroundings} {given : Given} {tree : Tree}
    {n : Network .double Portable} (hn : (readNetwork given tree).1 = .ok n)
    (settings : Settings) :
    let written := writeStandalone settings.standalone s.token n tree
    (exportWith s given settings tree).1 = written.result.mapError .writing ∧
      (exportWith s given settings tree).2.1 = written.tree := by
  intro written
  unfold exportWith
  cases hread : readNetwork given tree with
  | mk result events =>
    rw [hread] at hn
    cases hn
    dsimp only
    cases written.result with
    | error e => exact ⟨rfl, rfl⟩
    | ok paths => exact ⟨rfl, rfl⟩

theorem run_of_faulty {s : Surroundings} {given : Given} {contextPath networkPath : String}
    (hcontext : valueOf .context given = some contextPath)
    (hnetwork : valueOf .network given = some networkPath) {tree : Tree}
    (hfault : Faulty s given contextPath networkPath tree) :
    let done := runExport s given tree
    done.exit = 1 ∧ done.output = "" ∧ done.failure.isSome ∧ done.tree = tree := by
  intro done
  cases hsettings : readSettings s given tree with
  | error failure =>
    simp only [done, runExport, hsettings]
    exact ⟨trivial, trivial, rfl, trivial⟩
  | ok settings =>
    cases hread : (readNetwork given tree).1 with
    | error failure =>
      obtain ⟨hresult, hsame⟩ := exportWith_of_error (s := s) hread settings
      obtain ⟨htree, hfailed, -⟩ := run_of_settings hsettings
      obtain ⟨hexit, houtput, hfailure⟩ := hfailed failure hresult
      exact ⟨hexit, houtput, by rw [hfailure]; rfl, htree.trans hsame⟩
    | ok n =>
      have hreads : Reads s given contextPath networkPath tree settings n :=
        (reads_iff hcontext hnetwork).mpr ⟨hsettings, hread⟩
      exact absurd hfault hreads.not_faulty

theorem run_of_read {s : Surroundings} {given : Given} {tree : Tree} {settings : Settings}
    {n : Network .double Portable} (h : readSettings s given tree = .ok settings)
    (hn : (readNetwork given tree).1 = .ok n) :
    let done := runExport s given tree
    let written := writeStandalone settings.standalone s.token n tree
    done.tree = written.tree ∧
      (∀ paths, written.result = .ok paths →
        done.exit = 0 ∧ done.output = concat (paths.map fun path => path ++ "\n")) ∧
      ∀ e, written.result = .error e → done.exit = 1 ∧ done.failure = some (.writing e) := by
  intro done written
  obtain ⟨hresult, hsame⟩ := exportWith_of_read (s := s) hn settings
  obtain ⟨htree, hfailed, hgood⟩ := run_of_settings h
  refine ⟨htree.trans hsame, fun paths hp => ?_, fun e he => ?_⟩
  · exact hgood paths (by rw [hresult, hp]; rfl)
  · obtain ⟨hexit, -, hfailure⟩ := hfailed (.writing e) (by rw [hresult, he]; rfl)
    exact ⟨hexit, hfailure⟩

/-- A fault in what is read, be it the settings, the context or the network, makes the command fail
before it has changed any file. Without a fault the name is an identifier; a network without
forward kernels writes and prints nothing, and for any other network two files are written, and
printed if all goes well. They stand right in the output folder, and besides them only this folder
and its missing parents are made. -/
theorem export_confined {s : Surroundings} {given : Given}
    (h : requestOf s.arguments = .export given) (tree : Tree) :
    ∃ contextPath networkPath, valueOf .context given = some contextPath ∧
      valueOf .network given = some networkPath ∧
      let done := run s tree
      (Faulty s given contextPath networkPath tree →
        done.exit = 1 ∧ done.output = "" ∧ done.failure.isSome ∧ done.tree = tree) ∧
      (¬Faulty s given contextPath networkPath tree → ∃ settings n,
        Reads s given contextPath networkPath tree settings n ∧
        let name := settings.standalone.name
        let dir := settings.standalone.outputDir
        Identifier name ∧
        (n.feedKernels = [] → done.exit = 0 ∧ done.output = "" ∧ done.tree = tree) ∧
        (n.feedKernels ≠ [] → ∃ source header,
          n.standalone name s.token settings.standalone.constOnly =
            [(name ++ ".c", source), (name ++ ".h", header)] ∧
          WritesOnly (folderWrites dir ++
            fileWrites dir [(name ++ ".c", source), (name ++ ".h", header)]) tree done.tree ∧
          (done.exit = 0 →
            done.output =
              join dir (name ++ ".c") ++ "\n" ++ (join dir (name ++ ".h") ++ "\n") ∧
            ∃ folder, Stands done.tree dir folder (name ++ ".c", source) ∧
              Stands done.tree dir folder (name ++ ".h", header)) ∧
          (done.exit ≠ 0 → ∃ cause, done.failure = some (.writing (.file cause))))) := by
  obtain ⟨hnetwork, hcontext⟩ := readArguments_eq_export h
  obtain ⟨contextPath, hcontext⟩ := Option.isSome_iff_exists.mp hcontext
  obtain ⟨networkPath, hnetwork⟩ := Option.isSome_iff_exists.mp hnetwork
  refine ⟨contextPath, networkPath, hcontext, hnetwork, ?_⟩
  have hrun : run s tree = runExport s given tree := by rw [run, h]
  rw [hrun]
  intro done
  refine ⟨fun hfault => ?_, fun hfault => ?_⟩
  · exact run_of_faulty hcontext hnetwork hfault
  · obtain ⟨settings, n, hreads⟩ := reads_of_not_faulty hfault
    obtain ⟨hsettings, hread⟩ := (reads_iff hcontext hnetwork).mp hreads
    obtain ⟨htree, hgood, hbad⟩ := run_of_read hsettings hread
    refine ⟨settings, n, hreads, ?_⟩
    intro name dir
    have hname : Identifier name := identifier_of_validate hreads.sound
    refine ⟨hname, fun hnone => ?_, fun hsome => ?_⟩
    · obtain ⟨hresult, hsame⟩ := writeStandalone_of_nil hnone settings.standalone s.token tree
      obtain ⟨hexit, houtput⟩ := hgood [] hresult
      exact ⟨hexit, houtput, htree.trans hsame⟩
    · obtain ⟨source, header, hfiles⟩ :=
        standalone_files hsome name s.token settings.standalone.constOnly
      have hwrites := writesOnly_writeStandalone settings.standalone s.token n tree
      rw [← htree, hfiles] at hwrites
      refine ⟨source, header, hfiles, hwrites, ?_⟩
      obtain ⟨cause, hfailed⟩ | ⟨hok, hstand⟩ := writeStandalone_of_pair hname hfiles tree
      · obtain ⟨hexit, hfailure⟩ := hbad _ hfailed
        refine ⟨fun hzero => ?_, fun _ => ⟨cause, hfailure⟩⟩
        rw [hexit] at hzero
        cases hzero
      · obtain ⟨hexit, houtput⟩ := hgood _ hok
        rw [← htree] at hstand
        refine ⟨fun _ => ⟨?_, hstand⟩, fun hne => absurd hexit hne⟩
        rw [houtput]
        simp [concat, name, dir]

/-- A stored network with one kernel and an empty context, in the folder where the command works. -/
def tinyTree : Tree where
  entries :=
    [(["w"], .folder),
     (["w", "net.json"], .text ("\x7b\"FeedKernels\":[\x7b\"NumExpressions\":1," ++
        "\"EntryPoint\":\"feed_0\",\"FullSource\":\"\"\x7d],\"TrainKernels\":[]\x7d")),
     (["w", "memory.json"], .text ("\x7b\"memory\":[],\"outputs\":[]," ++
        "\"input_mapping\":[],\"output_mapping\":[]\x7d"))]
  working := ⟨["w"], 0⟩

/-- The output folder is missing, and so is the folder on the way to it. -/
def tinyCall : Surroundings where
  arguments := ["--network", "net.json", "--context", "memory.json", "--name", "tiny",
    "--output-dir", "out/../new"]
  environment := []
  moment := ⟨"", ""⟩
  token := "1"

/-- The options of that call. -/
def tinyGiven : Given :=
  [(.outputDir, "out/../new"), (.name, "tiny"), (.context, "memory.json"), (.network, "net.json")]

theorem export_tiny :
    requestOf tinyCall.arguments = .export tinyGiven ∧
      (run tinyCall tinyTree).output = "out/../new/tiny.c\nout/../new/tiny.h\n" ∧
      ∃ folder source header,
        Stands (run tinyCall tinyTree).tree "out/../new" folder ("tiny.c", source) ∧
        Stands (run tinyCall tinyTree).tree "out/../new" folder ("tiny.h", header) ∧
        FileTree.readText (run tinyCall tinyTree).tree (join "out/../new" "tiny.c") =
          .ok source := by
  have hrequest : requestOf tinyCall.arguments = .export tinyGiven := by decide +kernel
  have hdone : ((run tinyCall tinyTree).exit, (run tinyCall tinyTree).output) =
      (0, "out/../new/tiny.c\nout/../new/tiny.h\n") := by decide +kernel
  obtain ⟨hexit, houtput⟩ := Prod.mk.inj hdone
  have hresolved : (settingsOf tinyCall tinyGiven tinyTree).toOption.map Settings.standalone =
      some ⟨"tiny", false, "out/../new"⟩ := by decide +kernel
  obtain ⟨contextPath, networkPath, -, -, hfaulty, hsound⟩ := export_confined hrequest tinyTree
  have hfault : ¬Faulty tinyCall tinyGiven contextPath networkPath tinyTree := by
    intro hfault
    rw [hexit] at hfaulty
    exact absurd (hfaulty hfault).1 (by decide)
  obtain ⟨settings, n, hreads, -, hnone, hsome⟩ := hsound hfault
  have hsettings : settings.standalone = ⟨"tiny", false, "out/../new"⟩ := by
    rw [hreads.resolved] at hresolved
    exact Option.some.inj hresolved
  have hfeed : n.feedKernels ≠ [] := by
    intro hempty
    rw [houtput] at hnone
    exact absurd (hnone hempty).2.1 (by decide)
  obtain ⟨source, header, -, -, hstand, -⟩ := hsome hfeed
  obtain ⟨-, folder, hsource, hheader⟩ := hstand hexit
  rw [hsettings] at hsource hheader
  exact ⟨hrequest, houtput, folder, source, header, hsource, hheader, hsource.readText⟩

end NeuronKernels.ExportConfinement
