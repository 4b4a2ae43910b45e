import NeuronKernels.LoggingSession
import NeuronKernels.Proofs.FolderRemovals
import NeuronKernels.Proofs.WrittenStamps

/-!
# Which runs are kept

The run folders are put into the order of their names and the last ones are kept
(`keepsLatest_take_drop`). That order is the order of moments for the names that runs write, with
zeros in front of every number. A name can also be read that is not written so, and then the folder
of a later run may be removed before that of an earlier one. What is said here is said of
well-formed trees, and a session that starts in one leaves one behind (`wellFormed_start`).
-/

namespace NeuronKernels.RunRetention
open FileChanges FileTree FolderRemovals LoggingSession RunFolders RunStamp TextPieces
open WellFormedTrees WrittenStamps

/-- The run folders in a place, as far as their paths can be walked. -/
def runFolders (tree : Tree) (base : String) (place : Place) : List String :=
  if place.removed = 0 then
    (tree.names place.path).filter fun name =>
      isRunName name && tree.find (place.path ++ [name]) == some .folder &&
        decide ((join base name).utf8ByteSize ≤ pathLimit)
  else []

/-- Runs divide into the oldest and the latest ones, by the order of their names; that is the order
of their moments where the names are written by runs. -/
structure KeepsLatest (runs : List String) (retention : Nat) (oldest latest : List String) :
    Prop where
  all : (oldest ++ latest).Perm runs
  count : latest.length = min runs.length retention
  names : ∀ old ∈ oldest, ∀ new ∈ latest, precedes old new = true
  moments : ∀ s t, OfFourDigits s → OfFourDigits t →
    nameStart ++ written s ∈ oldest → nameStart ++ written t ∈ latest → Earlier s t

theorem precedes_runNames (s t : String) :
    precedes (nameStart ++ s) (nameStart ++ t) = precedes s t := by
  simp [precedes, nameStart, precede_mark]

theorem sortByText_perm (names : List String) : (sortByText id names).Perm names :=
  List.mergeSort_perm names _

theorem pairwise_sortByText {names : List String} (hnodup : names.Nodup) :
    (sortByText id names).Pairwise fun s t => precedes s t = true := by
  have sorted : (sortByText id names).Pairwise fun s t => !precedes t s := by
    refine List.pairwise_mergeSort (fun r s t hrs hst => ?_) (fun s t => ?_) names
    · simp only [Bool.not_eq_true', ← Bool.not_eq_true, precedes_iff_lt, not_lt] at *
      exact hrs.trans hst
    · simp only [Bool.or_eq_true, Bool.not_eq_true', ← Bool.not_eq_true, precedes_iff_lt, not_lt]
      exact le_total s t
  have distinct := List.nodup_iff_pairwise_ne.mp ((sortByText_perm names).symm.nodup hnodup)
  refine (sorted.and distinct).imp fun {s t} h => ?_
  simp only [Bool.not_eq_true', ← Bool.not_eq_true, precedes_iff_lt, not_lt] at h ⊢
  exact lt_of_le_of_ne h.1 h.2

/-- Of a row in the order of names the last ones are the latest. -/
theorem keepsLatest_take_drop {runs inOrder : List String} (hperm : inOrder.Perm runs)
    (hsorted : inOrder.Pairwise fun s t => precedes s t = true) (retention : Nat) :
    KeepsLatest runs retention (inOrder.take (inOrder.length - retention))
      (inOrder.drop (inOrder.length - retention)) := by
  have names : ∀ old ∈ inOrder.take (inOrder.length - retention),
      ∀ new ∈ inOrder.drop (inOrder.length - retention), precedes old new = true := by
    rw [← List.take_append_drop (inOrder.length - retention) inOrder] at hsorted
    exact (List.pairwise_append.mp hsorted).2.2
  refine ⟨?_, ?_, names, fun s t hs ht old new => ?_⟩
  · rwa [List.take_append_drop]
  · rw [List.length_drop, hperm.length_eq]
    omega
  · rw [← precedes_written_iff hs ht, ← precedes_runNames]
    exact names _ old _ new

theorem isFolder_iff {tree : Tree} {path : String} :
    isFolder tree path = true ↔ ∃ place, locateFolder tree path = .ok place := by
  simp only [isFolder, lookup, locateFolder]
  cases locate tree path with
  | error e => simp
  | ok place =>
    dsimp only
    cases tree.entryAt place with
    | none => simp
    | some entry => cases entry <;> simp

theorem pathExists_of_locateFolder {tree : Tree} {path : String} {place : Place}
    (h : locateFolder tree path = .ok place) : pathExists tree path = true := by
  obtain ⟨hlocate, hentry⟩ := locateFolder_eq_ok_iff_locate.mp h
  simp [pathExists, lookup, hlocate, hentry, Except.isOk, Except.toBool]

theorem mem_runFolders_iff {tree : Tree} {base name : String} {folder : List String} :
    name ∈ runFolders tree base ⟨folder, 0⟩ ↔ isRunName name = true ∧
      tree.find (folder ++ [name]) = some .folder ∧ (join base name).utf8ByteSize ≤ pathLimit := by
  simp only [runFolders, if_true, List.mem_filter, mem_names_iff, Bool.and_eq_true, beq_iff_eq,
    decide_eq_true_eq, and_assoc]
  refine and_iff_right_of_imp fun h => ?_
  rw [h.2.1, Option.isSome_some]

/-- The run folders among the names in a folder, in the order of their names. -/
def runsInOrder (tree : Tree) (base : String) (names : List String) : List String :=
  (sortByText id (names.filter isRunName)).filter fun name => isFolder tree (join base name)

theorem runPaths_eq (tree : Tree) (base : String) (names : List String) :
    runPaths tree base names = (runsInOrder tree base names).map (join base) := by
  rw [runPaths, List.filter_map]
  rfl

theorem pairwise_runsInOrder {names : List String} (hnodup : names.Nodup) (tree : Tree)
    (base : String) :
    (runsInOrder tree base names).Pairwise fun s t => precedes s t = true :=
  (pairwise_sortByText (hnodup.filter isRunName)).filter _

section
variable {tree : Tree} {base : String}

theorem cleanUp_eq {place : Place} {names runs : List String}
    (hbase : locateFolder tree base = .ok place) (hlist : listFolder tree base = .ok names)
    (hruns : runsInOrder tree base names = runs) (retention : Nat) :
    cleanUp base retention tree =
      (.ok (removeAll ((runs.take (runs.length - retention)).map (join base)) tree).1,
        (removeAll ((runs.take (runs.length - retention)).map (join base)) tree).2) := by
  simp only [cleanUp, pathExists_of_locateFolder hbase, hlist, runPaths_eq, hruns, List.length_map,
    ← List.map_take, Bool.not_true, Bool.false_eq_true, if_false]

variable {folder : List String}

theorem leadsOnlyTo_of_locateFolder (hbase : locateFolder tree base = .ok ⟨folder, 0⟩) :
    LeadsOnlyTo folder base tree := fun found hfound => by
  rw [hbase] at hfound
  cases hfound
  rfl

theorem not_isEmpty_of_locateFolder {place : Place} (hbase : locateFolder tree base = .ok place) :
    base.isEmpty = false :=
  (pathFault_eq_none_iff.mp (locateFolder_eq_ok_iff.mp hbase).1).2.1

theorem isFolder_join_iff (hbase : locateFolder tree base = .ok ⟨folder, 0⟩) {name : String}
    (hn : FileName name) :
    isFolder tree (join base name) = true ↔
      tree.find (folder ++ [name]) = some .folder ∧
        (join base name).utf8ByteSize ≤ pathLimit := by
  have hne := not_isEmpty_of_locateFolder hbase
  rw [isFolder_iff, ← hn.pathFault_join_eq_none_iff (locateFolder_eq_ok_iff.mp hbase).1]
  constructor
  · rintro ⟨place, h⟩
    have hfind := (of_locateFolder_join hn hne (leadsOnlyTo_of_locateFolder hbase) h).2
    exact ⟨hfind, (locateFolder_eq_ok_iff.mp h).1⟩
  · rintro ⟨hfind, hfault⟩
    exact ⟨_, locateFolder_join hn hne hbase hfault hfind⟩

variable (hw : WellFormed tree)
include hw

theorem fileName_of_find {name : String} {entry : Entry}
    (h : tree.find (folder ++ [name]) = some entry) : FileName name :=
  hw.named _ (mem_entries_of_find (by simp) h) name (by simp)

theorem nodup_runFolders (place : Place) : (runFolders tree base place).Nodup := by
  unfold runFolders
  split
  · exact (hw.nodup_names place.path).filter _
  · exact List.nodup_nil

theorem runsInOrder_perm (hbase : locateFolder tree base = .ok ⟨folder, 0⟩) :
    (runsInOrder tree base (tree.names folder)).Perm (runFolders tree base ⟨folder, 0⟩) := by
  have hsorted := (sortByText_perm _).symm.nodup ((hw.nodup_names folder).filter isRunName)
  have hnodup : (runsInOrder tree base (tree.names folder)).Nodup := hsorted.filter _
  refine (List.perm_ext_iff_of_nodup hnodup (nodup_runFolders hw _)).mpr fun name => ?_
  rw [mem_runFolders_iff, runsInOrder, List.mem_filter, (sortByText_perm _).mem_iff,
    List.mem_filter, mem_names_iff]
  constructor
  · rintro ⟨⟨hthere, hrun⟩, hfolder⟩
    obtain ⟨entry, hentry⟩ := Option.isSome_iff_exists.mp hthere
    exact ⟨hrun, (isFolder_join_iff hbase (fileName_of_find hw hentry)).mp hfolder⟩
  · rintro ⟨hrun, hfind, hsize⟩
    have hfolder := (isFolder_join_iff hbase (fileName_of_find hw hfind)).mpr ⟨hfind, hsize⟩
    exact ⟨⟨by rw [hfind, Option.isSome_some], hrun⟩, hfolder⟩

/-- Once the oldest run folders are gone and nothing else is, the latest ones remain. -/
theorem runFolders_perm_latest {after : Tree} {retention : Nat} {oldest latest : List String}
    (hkeeps : KeepsLatest (runFolders tree base ⟨folder, 0⟩) retention oldest latest)
    (hremoves : RemovesOnly (oldest.map (folder ++ [·])) tree after)
    (hgone : ∀ name ∈ oldest, Gone after (folder ++ [name])) :
    (runFolders after base ⟨folder, 0⟩).Perm latest := by
  obtain ⟨-, hlatest, hapart⟩ :=
    List.nodup_append.mp (hkeeps.all.symm.nodup (nodup_runFolders hw ⟨folder, 0⟩))
  have hmem (name : String) : name ∈ runFolders tree base ⟨folder, 0⟩ ↔
      name ∈ oldest ∨ name ∈ latest := by
    rw [← hkeeps.all.mem_iff, List.mem_append]
  refine (List.perm_ext_iff_of_nodup (nodup_runFolders (hremoves.wellFormed hw) _) hlatest).mpr
    fun name => ?_
  constructor
  · intro h
    obtain ⟨hrun, hfind, hsize⟩ := mem_runFolders_iff.mp h
    have hbefore := mem_runFolders_iff.mpr ⟨hrun, hremoves.kept _ _ hfind, hsize⟩
    refine ((hmem name).mp hbefore).resolve_left fun hold => ?_
    rw [hgone name hold _ (List.prefix_refl _)] at hfind
    cases hfind
  · intro h
    obtain ⟨hrun, hfind, hsize⟩ := mem_runFolders_iff.mp ((hmem name).mpr (.inr h))
    refine mem_runFolders_iff.mpr ⟨hrun, ?_, hsize⟩
    rw [hremoves.elsewhere, hfind]
    intro place hplace hbelow
    obtain ⟨old, hold, rfl⟩ := List.mem_map.mp hplace
    exact hapart old hold name h (concat_prefix_concat_iff.mp hbelow)

end

section
variable {tree : Tree} {base : String} (hw : WellFormed tree)
include hw

/-- What cleaning up removes from a folder, and when it is done. -/
theorem cleanUp_folder {folder : List String} (hbase : locateFolder tree base = .ok ⟨folder, 0⟩)
    (retention : Nat) :
    ∃ leftovers after oldest latest, cleanUp base retention tree = (.ok leftovers, after) ∧
      KeepsLatest (runFolders tree base ⟨folder, 0⟩) retention oldest latest ∧
      RemovesOnly (oldest.map (folder ++ [·])) tree after ∧
      (locateFolder after base = .ok ⟨folder, 0⟩ →
        leftovers = [] ∧ ∀ name ∈ oldest, Gone after (folder ++ [name])) := by
  have hlist : listFolder tree base = .ok (tree.names folder) := by
    rw [listFolder, hbase]
    rfl
  have hne := not_isEmpty_of_locateFolder hbase
  have hto := leadsOnlyTo_of_locateFolder hbase
  have hfault := (locateFolder_eq_ok_iff.mp hbase).1
  have hkeeps := keepsLatest_take_drop (runsInOrder_perm hw hbase)
    (pairwise_runsInOrder (hw.nodup_names folder) tree base) retention
  refine ⟨_, _, _, _, cleanUp_eq hbase hlist rfl retention, hkeeps, ?_⟩
  generalize (runsInOrder tree base (tree.names folder)).take _ = oldest at hkeeps ⊢
  have hruns : ∀ name ∈ oldest, name ∈ runFolders tree base ⟨folder, 0⟩ := fun name hname =>
    hkeeps.all.mem_iff.mp (List.mem_append_left _ hname)
  have hfind : ∀ name ∈ oldest, tree.find (folder ++ [name]) = some .folder := fun name hname =>
    (mem_runFolders_iff.mp (hruns name hname)).2.1
  have hnames : ∀ name ∈ oldest, FileName name := fun name hname =>
    fileName_of_find hw (hfind name hname)
  have hfits : ∀ name ∈ oldest, pathFault (join base name) = none := fun name hname =>
    ((hnames name hname).pathFault_join_eq_none_iff hfault).mpr
      (mem_runFolders_iff.mp (hruns name hname)).2.2
  have hnodup : oldest.Nodup :=
    (List.nodup_append.mp (hkeeps.all.symm.nodup (nodup_runFolders hw _))).1
  exact ⟨removesOnly_removeAll hne hw hto hnames,
    removeAll_gone hne hw hto hnames hfits hfind hnodup⟩

omit hw in
/-- Nothing has a name in a folder that has been removed. -/
theorem cleanUp_removed {place : Place} (hbase : locateFolder tree base = .ok place)
    (hremoved : place.removed ≠ 0) (retention : Nat) :
    cleanUp base retention tree = (.ok [], tree) := by
  have hlist : listFolder tree base = .ok [] := by
    rw [listFolder, hbase, Except.map, if_neg hremoved]
  have hruns : runsInOrder tree base [] = [] := by simp [runsInOrder, sortByText]
  rw [cleanUp_eq hbase hlist hruns, List.take_nil]
  rfl

theorem wellFormed_cleanUp (base : String) (retention : Nat) :
    WellFormed (cleanUp base retention tree).2 := by
  cases hbase : locateFolder tree base with
  | error e =>
    have hlist : listFolder tree base = .error e := by
      rw [listFolder, hbase]
      rfl
    unfold cleanUp
    split
    · exact hw
    · rw [hlist]
      exact hw
  | ok place =>
    obtain ⟨folder, removed⟩ := place
    cases removed with
    | zero =>
      obtain ⟨leftovers, after, oldest, latest, hclean, -, hremoves, -⟩ :=
        cleanUp_folder hw hbase retention
      rw [hclean]
      exact hremoves.wellFormed hw
    | succ n =>
      rw [cleanUp_removed hbase (Nat.succ_ne_zero n)]
      exact hw

theorem wellFormed_openLogFile (runFolder day : String) :
    WellFormed (openLogFile runFolder day tree).2 := by
  have hfolders := wellFormed_makeFolders hw runFolder
  unfold openLogFile
  dsimp only
  cases hmade : makeFolders runFolder tree with
  | mk result next =>
    rw [hmade] at hfolders
    cases result with
    | error e => exact hfolders
    | ok =>
      have hfile := wellFormed_writeText hfolders (join runFolder (logFileName day)) ""
      dsimp only
      cases hwritten : writeText (join runFolder (logFileName day)) "" next with
      | mk result last =>
        rw [hwritten] at hfile
        cases result <;> exact hfile

theorem wellFormed_startFile (base : String) (retention : Nat) (moment : Moment) :
    WellFormed (startFile base retention moment tree).tree := by
  have hfolders := wellFormed_makeFolders hw (runPath base moment.stamp)
  unfold startFile
  dsimp only
  cases hmade : makeFolders (runPath base moment.stamp) tree with
  | mk result next =>
    rw [hmade] at hfolders
    cases result with
    | error e => exact hfolders
    | ok =>
      have hcleaned := wellFormed_cleanUp hfolders base retention
      dsimp only
      cases hclean : cleanUp base retention next with
      | mk result cleaned =>
        rw [hclean] at hcleaned
        cases result with
        | error e => exact hcleaned
        | ok leftovers => exact wellFormed_openLogFile hcleaned _ _

/-- A session that starts, or fails to start, leaves a well-formed tree to the next one. -/
theorem wellFormed_start (flags : DebugFlags.Flags) (options : LoggingOptions)
    (fromEnvironment : Option String) (moment : Moment) :
    WellFormed (start flags options fromEnvironment moment tree).tree := by
  unfold start
  dsimp only
  cases options.logDir with
  | none => exact hw
  | some base =>
    have hfile := wellFormed_startFile hw base options.retention moment
    dsimp only
    split <;> exact hfile

end

/-- A base folder that is missing stays missing. In one that is there nothing but the oldest run
folders is removed, whatever fails. None of these removals fails if the path of the base folder
still leads there afterwards, and once the oldest run folders are gone, the latest ones remain. -/
theorem latest_runs_stay {tree : Tree} (hw : WellFormed tree) (base : String) (retention : Nat) :
    (pathExists tree base = false → cleanUp base retention tree = (.ok [], tree)) ∧
      ∀ place, locateFolder tree base = .ok place →
        ∃ leftovers after oldest latest, cleanUp base retention tree = (.ok leftovers, after) ∧
          KeepsLatest (runFolders tree base place) retention oldest latest ∧
          RemovesOnly (oldest.map (place.path ++ [·])) tree after ∧
          (locateFolder after base = .ok place →
            leftovers = [] ∧ ∀ name ∈ oldest, Gone after (place.path ++ [name])) ∧
          ((∀ name ∈ oldest, Gone after (place.path ++ [name])) →
            (runFolders after base place).Perm latest) := by
  refine ⟨fun hmissing => by simp [cleanUp, hmissing], fun place hbase => ?_⟩
  obtain ⟨folder, removed⟩ := place
  cases removed with
  | zero =>
    obtain ⟨leftovers, after, oldest, latest, hclean, hkeeps, hremoves, hdone⟩ :=
      cleanUp_folder hw hbase retention
    exact ⟨leftovers, after, oldest, latest, hclean, hkeeps, hremoves, hdone,
      runFolders_perm_latest hw hkeeps hremoves⟩
  | succ n =>
    refine ⟨[], tree, [], [], cleanUp_removed hbase (Nat.succ_ne_zero n) retention, ?_, .refl tree,
      fun _ => ⟨rfl, nofun⟩, fun _ => .nil⟩
    exact ⟨.nil, (Nat.zero_min retention).symm, nofun, nofun⟩

/-- Folders of these names in a folder that stands below the working folder. -/
def logFolder (names : List String) : Tree :=
  ⟨(["logs"], .folder) :: names.map fun name => (["logs", name], .folder), ⟨[], 0⟩⟩

theorem wellFormed_logFolder {names : List String} (hnodup : names.Nodup)
    (hnames : ∀ name ∈ names, FileName name) : WellFormed (logFolder names) where
  once := by
    have hkeys : (names.map fun name => ["logs", name]).Nodup :=
      hnodup.map fun _ _ h => by simpa using h
    simpa [logFolder, Function.comp_def] using hkeys
  named := by
    have hlogs : FileName "logs" := by decide +kernel
    simpa [logFolder, hlogs] using hnames
  held e he := by
    obtain rfl | he := List.mem_cons.mp he
    · rfl
    · obtain ⟨name, -, rfl⟩ := List.mem_map.mp he
      rfl
  working := rfl

theorem runsInOrder_of_sorted {tree : Tree} {base : String} {names : List String}
    (hsorted : (names.filter isRunName).Pairwise fun s t => !precedes t s) :
    runsInOrder tree base names =
      (names.filter isRunName).filter fun name => isFolder tree (join base name) := by
  rw [runsInOrder, sortByText]
  exact congrArg _ (List.mergeSort_of_pairwise hsorted)

theorem older_of_two_removed :
    let before := logFolder ["run_20250101_000000", "run_20250102_000000", "unrelated"]
    let after := logFolder ["run_20250102_000000", "unrelated"]
    WellFormed before ∧ cleanUp "logs" 1 before = (.ok [], after) ∧
      ∃ oldest latest, KeepsLatest (runFolders before "logs" ⟨["logs"], 0⟩) 1 oldest latest ∧
        (runFolders after "logs" ⟨["logs"], 0⟩).Perm latest := by
  intro before after
  have hnames : ∀ name ∈ ["run_20250101_000000", "run_20250102_000000", "unrelated"],
      FileName name := by
    simp only [List.forall_mem_cons]
    exact ⟨by decide +kernel, by decide +kernel, by decide +kernel, nofun⟩
  have hw : WellFormed before := wellFormed_logFolder (by decide) hnames
  have hruns : runsInOrder before "logs" (before.names ["logs"]) =
      ["run_20250101_000000", "run_20250102_000000"] := by
    rw [runsInOrder_of_sorted (by decide +kernel)]
    decide +kernel
  have hcleaned : cleanUp "logs" 1 before = (.ok [], after) := cleanUp_eq rfl rfl hruns 1
  obtain ⟨leftovers, _, oldest, latest, hclean, hkeeps, -, hdone, hlatest⟩ :=
    (latest_runs_stay hw "logs" 1).2 ⟨["logs"], 0⟩ rfl
  rw [hcleaned] at hclean
  cases hclean
  exact ⟨hw, hcleaned, oldest, latest, hkeeps, hlatest (hdone rfl).2⟩

/-- The name of the second run has no zero in front of its day, and stands behind the name of a
later run. -/
theorem later_run_removed :
    let before := logFolder ["run_20251015_000000", "run_2025102_000000"]
    let after := logFolder ["run_2025102_000000"]
    cleanUp "logs" 1 before = (.ok [], after) ∧
      runFolders before "logs" ⟨["logs"], 0⟩ = ["run_20251015_000000", "run_2025102_000000"] ∧
      runFolders after "logs" ⟨["logs"], 0⟩ = ["run_2025102_000000"] ∧
      ∃ removed remaining, RunStamp.ofText "20251015_000000" = some removed ∧
        RunStamp.ofText "2025102_000000" = some remaining ∧ Earlier remaining removed := by
  intro before after
  have hruns : runsInOrder before "logs" (before.names ["logs"]) =
      ["run_20251015_000000", "run_2025102_000000"] := by
    rw [runsInOrder_of_sorted (by decide +kernel)]
    decide +kernel
  have hcleaned : cleanUp "logs" 1 before = (.ok [], after) := cleanUp_eq rfl rfl hruns 1
  have hremoved : RunStamp.ofText "20251015_000000" = some ⟨2025, 10, 15, 0, 0, 0⟩ := by
    decide +kernel
  have hremaining : RunStamp.ofText "2025102_000000" = some ⟨2025, 10, 2, 0, 0, 0⟩ := by
    decide +kernel
  exact ⟨hcleaned, by decide +kernel, by decide +kernel, _, _, hremoved, hremaining,
    by simp [Earlier]⟩

end NeuronKernels.RunRetention
