import NeuronKernels.Proofs.FileChanges
import Mathlib.Data.List.Nodup

/-!
# Trees that stand for files and folders

A tree is a list of paths, and not every list stands for files and folders: a path must stand once,
what holds it must be a folder, and a name must be one that an entry can have (`WellFormed`). A new
entry is put under such a name in a folder, so what makes files and folders keeps the tree well
formed (`wellFormed_writeText`, `wellFormed_makeFolders`).
-/

namespace NeuronKernels.WellFormedTrees
open FileChanges FileTree TextPieces

/-- A name that an entry of a tree can have. -/
structure FileName (name : String) : Prop extends EntryName name where
  no_zero : ∀ c ∈ name.toList, c.toNat ≠ 0
  fits : name.utf8ByteSize ≤ nameLimit

instance (name : String) : Decidable (FileName name) :=
  decidable_of_iff ((name.toList ≠ [] ∧ '/' ∉ name.toList ∧ isStep name = false) ∧
      (name.toList.all fun c => c.toNat != 0) = true ∧ name.utf8ByteSize ≤ nameLimit)
    ⟨fun ⟨⟨hne, hslash, hstep⟩, hzero, hfits⟩ =>
        ⟨⟨hne, hslash, hstep⟩, by simpa using hzero, hfits⟩,
      fun h => ⟨⟨h.ne_nil, h.no_slash, h.no_step⟩, by simpa using h.no_zero, h.fits⟩⟩

/-- A tree in which every path stands once, each below a folder. -/
structure WellFormed (tree : Tree) : Prop where
  once : (tree.entries.map Prod.fst).Nodup
  named : ∀ e ∈ tree.entries, ∀ name ∈ e.1, FileName name
  held : ∀ e ∈ tree.entries, tree.find e.1.dropLast = some .folder
  working : tree.find tree.working.path = some .folder

theorem find_nil (tree : Tree) : tree.find [] = some .folder := rfl

theorem mem_entries_of_find {tree : Tree} {path : List String} {entry : Entry}
    (hne : path ≠ []) (h : tree.find path = some entry) : (path, entry) ∈ tree.entries := by
  rw [Tree.find, if_neg hne, Option.map_eq_some_iff] at h
  obtain ⟨⟨key, found⟩, hfound, rfl⟩ := h
  have hkey : key = path := by simpa using List.find?_some hfound
  exact hkey ▸ List.mem_of_find?_eq_some hfound

theorem WellFormed.find_dropLast {tree : Tree} (h : WellFormed tree) {path : List String}
    {entry : Entry} (hfind : tree.find path = some entry) :
    tree.find path.dropLast = some .folder := by
  by_cases hne : path = []
  · subst hne
    exact find_nil tree
  · exact h.held _ (mem_entries_of_find hne hfind)

theorem lastName_eq_some_iff {folder path : List String} {name : String} :
    (if path.dropLast == folder then path.getLast? else none) = some name ↔
      path = folder ++ [name] := by
  constructor
  · intro h
    split at h
    · rename_i hfolder
      obtain ⟨start, rfl⟩ := List.getLast?_eq_some_iff.mp h
      rw [List.dropLast_concat, beq_iff_eq] at hfolder
      rw [hfolder]
    · cases h
  · rintro rfl
    simp

theorem mem_names_iff {tree : Tree} {folder : List String} {name : String} :
    name ∈ tree.names folder ↔ (tree.find (folder ++ [name])).isSome := by
  have hne : folder ++ [name] ≠ [] := by simp
  rw [Tree.names, List.mem_filterMap, Tree.find, if_neg hne, Option.isSome_map, List.find?_isSome]
  exact exists_congr fun e => and_congr_right fun _ => lastName_eq_some_iff.trans beq_iff_eq.symm

theorem WellFormed.nodup_names {tree : Tree} (h : WellFormed tree) (folder : List String) :
    (tree.names folder).Nodup := by
  have byKey : tree.names folder = (tree.entries.map Prod.fst).filterMap fun path =>
      if path.dropLast == folder then path.getLast? else none := by
    rw [List.filterMap_map]
    rfl
  rw [byKey]
  refine h.once.filterMap fun path other name hpath hother => ?_
  rw [Option.mem_def, lastName_eq_some_iff] at hpath hother
  rw [hpath, hother]

namespace FileName

variable {name : String} (hn : FileName name)
include hn

theorem endsWithSlash_join (dir : String) : endsWithSlash (join dir name) = false := by
  obtain ⟨front, hfront⟩ : ∃ front, (join dir name).toList = front ++ name.toList := by
    rw [join]
    split
    · exact ⟨[], rfl⟩
    · split
      · exact ⟨dir.toList, String.toList_append⟩
      · exact ⟨(dir ++ "/").toList, String.toList_append⟩
  obtain ⟨start, last, hlast⟩ := List.eq_nil_or_concat name.toList |>.resolve_left hn.ne_nil
  have hslash : last ≠ '/' := by
    rintro rfl
    exact hn.no_slash (by simp [hlast])
  simp [endsWithSlash, hfront, hlast, ← List.append_assoc, hslash]

theorem enter_eq_ok_iff {folder place : Place} :
    enter folder name = .ok place ↔ folder.removed = 0 ∧ place = ⟨folder.path ++ [name], 0⟩ := by
  refine ⟨enter_eq_ok hn.no_step, ?_⟩
  rintro ⟨hremoved, rfl⟩
  obtain ⟨hstay, hup⟩ : name ≠ "." ∧ name ≠ ".." := by simpa [isStep] using hn.no_step
  rw [enter, if_neg hstay, if_neg hup, if_neg (by simp [hremoved]), if_neg (by simpa using hn.fits)]

theorem pathFault_join_eq_none_iff {base : String} (hbase : pathFault base = none) :
    pathFault (join base name) = none ↔ (join base name).utf8ByteSize ≤ pathLimit := by
  obtain ⟨hzero, hne, -⟩ := pathFault_eq_none_iff.mp hbase
  refine ⟨fun h => (pathFault_eq_none_iff.mp h).2.2, fun hsize => ?_⟩
  obtain ⟨rest, hrest, hmem⟩ : ∃ rest, join base name = base ++ rest ∧
      ∀ c ∈ rest.toList, c = '/' ∨ c ∈ name.toList := by
    rw [join, hn.isAbsolute_eq, hne, Bool.or_self, if_neg Bool.false_ne_true]
    split
    · exact ⟨name, rfl, fun c hc => .inr hc⟩
    · exact ⟨"/" ++ name, String.append_assoc, by simp⟩
  rw [hrest] at hsize ⊢
  refine pathFault_eq_none_iff.mpr ⟨fun c hc => ?_, ?_, hsize⟩
  · rw [String.toList_append] at hc
    obtain hc | hc := List.mem_append.mp hc
    · exact hzero c hc
    · obtain rfl | hc := hmem c hc
      · decide
      · exact hn.no_zero c hc
  · simpa using fun h : base = "" => absurd h (by simpa using hne)

/-- A name in a folder leads to the path of the folder with the name behind it. -/
theorem locate_join_eq_ok_iff {tree : Tree} {base : String} (hne : base.isEmpty = false)
    {place : Place} :
    locate tree (join base name) = .ok place ↔
      pathFault (join base name) = none ∧
        ∃ folder, locateFolder tree base = .ok ⟨folder, 0⟩ ∧ place = ⟨folder ++ [name], 0⟩ := by
  obtain ⟨rest, hrest⟩ := hn.join_eq_append hne
  have horigin : origin tree (join base name) = origin tree base := by
    rw [hrest, origin, isAbsolute_append hne, origin]
  rw [locate, hn.endsWithSlash_join, walkFor_eq_ok_iff, horigin, hn.pathNames_join]
  simp only [Bool.false_eq_true, if_false, List.append_nil, walk_concat_eq_ok_iff,
    hn.enter_eq_ok_iff]
  refine and_congr_right fun hfault => ?_
  have hbase : pathFault base = none := pathFault_of_append hne (hrest ▸ hfault)
  constructor
  · rintro ⟨⟨folder, removed⟩, hwalk, hentry, hzero, rfl⟩
    obtain rfl : removed = 0 := hzero
    exact ⟨folder, locateFolder_eq_ok_iff.mpr ⟨hbase, hwalk, hentry⟩, rfl⟩
  · rintro ⟨folder, hlocate, rfl⟩
    obtain ⟨-, hwalk, hentry⟩ := locateFolder_eq_ok_iff.mp hlocate
    exact ⟨⟨folder, 0⟩, hwalk, hentry, rfl, rfl⟩

end FileName

theorem of_mem_pathNames {path name : String} (h : name ∈ pathNames path) :
    name.toList ≠ [] ∧ '/' ∉ name.toList ∧ name.toList ⊆ path.toList := by
  obtain ⟨piece, hpiece, rfl⟩ := List.mem_map.mp h
  obtain ⟨hmem, hne⟩ := List.mem_filter.mp hpiece
  rw [String.toList_ofList]
  exact ⟨by simpa using hne, of_mem_splitOn hmem⟩

/-- The last name of a path that can be walked is the name of an entry, unless it is a step. -/
theorem fileName_of_enter {tree : Tree} {path name : String} {folder place : Place}
    (hholder : holder tree path = .ok (folder, name)) (hstep : isStep name = false)
    (henter : enter folder name = .ok place) : FileName name := by
  obtain ⟨hfault, -, -, hname⟩ := holder_eq_ok hholder
  have hmem : name ∈ pathNames path := by
    cases hlast : (pathNames path).getLast? with
    | none =>
      rw [hname, hlast] at hstep
      cases hstep
    | some last =>
      rw [hname, hlast]
      exact List.mem_of_getLast? hlast
  obtain ⟨hne, hslash, hsub⟩ := of_mem_pathNames hmem
  obtain ⟨hstay, hup⟩ : name ≠ "." ∧ name ≠ ".." := by simpa [isStep] using hstep
  refine ⟨⟨hne, hslash, hstep⟩, fun c hc => (pathFault_eq_none_iff.mp hfault).1 c (hsub hc), ?_⟩
  by_contra hlong
  rw [enter, if_neg hstay, if_neg hup, if_pos (Nat.lt_of_not_le hlong)] at henter
  split at henter <;> cases henter

theorem of_mem_entries_put {tree : Tree} {path : List String} {entry : Entry}
    {e : List String × Entry} (h : e ∈ (tree.put path entry).entries) :
    e ∈ tree.entries ∨ e = (path, entry) := by
  unfold Tree.put at h
  split at h
  · obtain ⟨earlier, hearlier, rfl⟩ := List.mem_map.mp h
    split
    · exact .inr rfl
    · exact .inl hearlier
  · simpa using h

theorem nodup_keys_put {tree : Tree} (honce : (tree.entries.map Prod.fst).Nodup)
    (path : List String) (entry : Entry) :
    ((tree.put path entry).entries.map Prod.fst).Nodup := by
  unfold Tree.put
  split
  · have hkeys : (tree.entries.map fun e => if e.1 == path then (path, entry) else e).map Prod.fst =
        tree.entries.map Prod.fst := by
      rw [List.map_map]
      refine List.map_congr_left fun e _ => ?_
      by_cases hsame : e.1 = path <;> simp [hsame]
    simpa only [hkeys] using honce
  · rename_i hnew
    rw [List.map_append, List.nodup_append]
    refine ⟨honce, List.nodup_singleton path, fun key hkey other hother heq => ?_⟩
    obtain ⟨e, he, rfl⟩ := List.mem_map.mp hkey
    obtain rfl := List.mem_singleton.mp hother
    exact hnew (List.any_eq_true.mpr ⟨e, he, beq_iff_eq.mpr heq⟩)

theorem wellFormed_put {tree : Tree} (hw : WellFormed tree) {folder : List String} {name : String}
    (hfolder : tree.find folder = some .folder) (hn : FileName name)
    (hold : tree.find (folder ++ [name]) ≠ some .folder) (entry : Entry) :
    WellFormed (tree.put (folder ++ [name]) entry) := by
  have hkept {path : List String} (h : tree.find path = some .folder) :
      (tree.put (folder ++ [name]) entry).find path = some .folder := by
    rwa [Tree.find_put_of_ne]
    rintro rfl
    exact hold h
  have hnames : ∀ other ∈ folder ++ [name], FileName other := by
    intro other hother
    obtain hother | hother := List.mem_append.mp hother
    · have hmem := mem_entries_of_find (List.ne_nil_of_mem hother) hfolder
      exact hw.named _ hmem other hother
    · exact List.mem_singleton.mp hother ▸ hn
  refine ⟨nodup_keys_put hw.once _ entry, fun e he => ?_, fun e he => ?_, ?_⟩
  · obtain he | rfl := of_mem_entries_put he
    · exact hw.named e he
    · exact hnames
  · obtain he | rfl := of_mem_entries_put he
    · exact hkept (hw.held e he)
    · rw [List.dropLast_concat]
      exact hkept hfolder
  · rw [Tree.working_put]
    exact hkept hw.working

theorem wellFormed_writeText {tree : Tree} (hw : WellFormed tree) (path content : String) :
    WellFormed (writeText path content tree).2 := by
  rw [writeText_eq]
  cases h : filePlace tree path with
  | error e => exact hw
  | ok place =>
    obtain ⟨folder, name, hholder, hstep, -, henter, rfl, hold⟩ := filePlace_cases h
    obtain ⟨-, -, hfolder, -⟩ := holder_eq_ok hholder
    exact wellFormed_put hw hfolder (fileName_of_enter hholder hstep henter) hold _

theorem wellFormed_makeFolder {tree : Tree} (hw : WellFormed tree) (path : String) :
    WellFormed (makeFolder path tree).2 := by
  rw [makeFolder_eq]
  cases h : newFolderPlace tree path with
  | error e => exact hw
  | ok place =>
    obtain ⟨folder, name, hholder, hstep, henter, rfl, hnone⟩ := newFolderPlace_cases h
    obtain ⟨-, -, hfolder, -⟩ := holder_eq_ok hholder
    have hold : tree.find (folder ++ [name]) ≠ some .folder := by
      rw [hnone]
      nofun
    exact wellFormed_put hw hfolder (fileName_of_enter hholder hstep henter) hold _

theorem wellFormed_makeFolders {tree : Tree} (hw : WellFormed tree) (path : String) :
    WellFormed (makeFolders path tree).2 :=
  makeFoldersAlong_keeps (P := WellFormed) (fun other _ _ h => wellFormed_makeFolder h other) hw

end NeuronKernels.WellFormedTrees
