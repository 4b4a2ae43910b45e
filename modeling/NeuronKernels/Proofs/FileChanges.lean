import NeuronKernels.FileTree

/-!
# What changes of files leave alone

A file that is written and a folder that is made never stand in the place of a folder, so every
path still leads where it led before (`Extends.locate`). What differs after a row of changes is what
the written paths themselves lead to (`WritesOnly`). A file that is written under a name in a folder
stands right in that folder (`filePlace_join`).
-/

namespace NeuronKernels.FileChanges
open FileTree TextPieces

/-- Where the walk along a written path starts. -/
def origin (tree : Tree) (path : String) : Place :=
  if isAbsolute path then ⟨[], 0⟩ else tree.working

theorem walkFor_eq_ok_iff {tree : Tree} {path : String} {names : List String} {place : Place} :
    walkFor tree path names = .ok place ↔
      pathFault path = none ∧ walk tree (origin tree path) names = .ok place := by
  unfold walkFor origin
  cases pathFault path <;> simp

theorem walk_cons_eq_ok_iff {tree : Tree} {here place : Place} {name : String}
    {names : List String} :
    walk tree here (name :: names) = .ok place ↔
      tree.entryAt here = some .folder ∧
        ∃ next, enter here name = .ok next ∧ walk tree next names = .ok place := by
  simp only [walk]
  split <;> rename_i hentry
  · simp [hentry]
  · cases enter here name <;> simp [hentry]
  · rename_i entry hne
    have hfolder : entry ≠ .folder := hne
    simp [hentry, hfolder]

theorem walk_append (tree : Tree) (here : Place) (names rest : List String) :
    walk tree here (names ++ rest) =
      (walk tree here names).bind fun next => walk tree next rest := by
  induction names generalizing here with
  | nil => rfl
  | cons name names ih =>
    rw [List.cons_append, walk, walk]
    cases tree.entryAt here with
    | none => rfl
    | some entry =>
      cases entry with
      | folder =>
        cases enter here name with
        | error e => rfl
        | ok next => exact ih next
      | text content => rfl
      | bytes => rfl

theorem walk_concat_eq_ok_iff {tree : Tree} {here place : Place} {names : List String}
    {name : String} :
    walk tree here (names ++ [name]) = .ok place ↔
      ∃ folder, walk tree here names = .ok folder ∧ tree.entryAt folder = some .folder ∧
        enter folder name = .ok place := by
  have last (folder : Place) : walk tree folder [name] = .ok place ↔
      tree.entryAt folder = some .folder ∧ enter folder name = .ok place := by
    rw [walk_cons_eq_ok_iff]
    simp [walk]
  rw [walk_append]
  cases walk tree here names with
  | error e => simp [Except.bind]
  | ok folder => simp [Except.bind, last]

theorem enter_stay (folder : Place) : enter folder "." = .ok folder := rfl

theorem enter_eq_ok {folder place : Place} {name : String} (hstep : isStep name = false)
    (h : enter folder name = .ok place) :
    folder.removed = 0 ∧ place = ⟨folder.path ++ [name], 0⟩ := by
  obtain ⟨hstay, hup⟩ : name ≠ "." ∧ name ≠ ".." := by simpa [isStep] using hstep
  rw [enter, if_neg hstay, if_neg hup] at h
  split at h
  · cases h
  · split at h
    · cases h
    · cases h
      exact ⟨by omega, rfl⟩

/-- What the holder of a path is found for. -/
theorem holder_eq_ok {tree : Tree} {path name : String} {folder : Place}
    (h : holder tree path = .ok (folder, name)) :
    pathFault path = none ∧
      walk tree (origin tree path) (pathNames path).dropLast = .ok folder ∧
      tree.entryAt folder = some .folder ∧ name = (pathNames path).getLast?.getD "." := by
  simp only [holder] at h
  cases hw : walkFor tree path ((pathNames path).dropLast ++ ["."]) with
  | error e =>
    rw [hw] at h
    cases h
  | ok found =>
    rw [hw] at h
    cases h
    obtain ⟨hfault, hwalk⟩ := walkFor_eq_ok_iff.mp hw
    obtain ⟨mid, hmid, hentry, henter⟩ := walk_concat_eq_ok_iff.mp hwalk
    cases henter
    exact ⟨hfault, hmid, hentry, rfl⟩

/-- The last name of a path is entered from its holder, unless it is a step. -/
theorem walk_of_holder {tree : Tree} {path name : String} {folder place : Place}
    (h : holder tree path = .ok (folder, name)) (hstep : isStep name = false)
    (henter : enter folder name = .ok place) :
    walk tree (origin tree path) (pathNames path) = .ok place := by
  obtain ⟨-, hwalk, hentry, hname⟩ := holder_eq_ok h
  have hne : pathNames path ≠ [] := by
    intro hnil
    rw [hname, hnil] at hstep
    exact absurd hstep (by decide)
  have hlast : (pathNames path).getLast hne = name := by
    rw [hname, List.getLast?_eq_some_getLast hne]
    rfl
  rw [← List.dropLast_concat_getLast hne, hlast]
  exact walk_concat_eq_ok_iff.mpr ⟨folder, hwalk, hentry, henter⟩

theorem locate_eq_ok_of_walk {tree : Tree} {path : String} {place : Place}
    (hfault : pathFault path = none)
    (hwalk : walk tree (origin tree path) (pathNames path) = .ok place)
    (hslash : endsWithSlash path = true → tree.entryAt place = some .folder) :
    locate tree path = .ok place := by
  rw [locate, walkFor_eq_ok_iff]
  refine ⟨hfault, ?_⟩
  cases hends : endsWithSlash path with
  | false => simpa using hwalk
  | true => exact walk_concat_eq_ok_iff.mpr ⟨place, hwalk, hslash hends, enter_stay place⟩

theorem locateFolder_eq_ok_iff_locate {tree : Tree} {path : String} {place : Place} :
    locateFolder tree path = .ok place ↔
      locate tree path = .ok place ∧ tree.entryAt place = some .folder := by
  rw [locateFolder]
  cases locate tree path with
  | error e => simp
  | ok found =>
    have hfound : (Except.ok found : Except FileFault Place) = .ok place ∧
        tree.entryAt place = some .folder ↔
          found = place ∧ tree.entryAt found = some .folder := by
      rw [Except.ok.injEq]
      exact and_congr_right fun heq => by rw [heq]
    rw [hfound]
    dsimp only
    cases tree.entryAt found with
    | none => simp
    | some entry => cases entry <;> simp

theorem locateFolder_eq_ok_iff {tree : Tree} {path : String} {place : Place} :
    locateFolder tree path = .ok place ↔
      pathFault path = none ∧ walk tree (origin tree path) (pathNames path) = .ok place ∧
        tree.entryAt place = some .folder := by
  rw [locateFolder_eq_ok_iff_locate]
  constructor
  · rintro ⟨h, hentry⟩
    rw [locate, walkFor_eq_ok_iff] at h
    refine ⟨h.1, ?_, hentry⟩
    cases hslash : endsWithSlash path with
    | false => simpa [hslash] using h.2
    | true =>
      rw [hslash] at h
      obtain ⟨folder, hwalk, -, hstay⟩ := walk_concat_eq_ok_iff.mp h.2
      cases hstay
      exact hwalk
  · rintro ⟨hfault, hwalk, hentry⟩
    exact ⟨locate_eq_ok_of_walk hfault hwalk fun _ => hentry, hentry⟩

/-- A file is placed under its name in its holder, which is no removed folder. -/
theorem filePlace_cases {tree : Tree} {path : String} {place : List String}
    (h : filePlace tree path = .ok place) :
    ∃ folder name, holder tree path = .ok (⟨folder, 0⟩, name) ∧ isStep name = false ∧
      endsWithSlash path = false ∧ enter ⟨folder, 0⟩ name = .ok ⟨place, 0⟩ ∧
      place = folder ++ [name] ∧ tree.find place ≠ some .folder := by
  rw [filePlace] at h
  split at h
  · cases h
  · rename_i folder name hholder
    split at h
    · cases h
    · rename_i hsteps
      obtain ⟨hstep, hslash⟩ : isStep name = false ∧ endsWithSlash path = false := by
        simpa using hsteps
      split at h
      · cases h
      · rename_i next henter
        obtain ⟨folder, removed⟩ := folder
        obtain ⟨rfl, rfl⟩ := enter_eq_ok hstep henter
        split at h
        · cases h
        · rename_i hentry
          cases h
          exact ⟨folder, name, hholder, hstep, hslash, henter, rfl,
            by simpa [Tree.entryAt] using hentry⟩

theorem filePlace_eq_ok {tree : Tree} {path : String} {place : List String}
    (h : filePlace tree path = .ok place) :
    locate tree path = .ok ⟨place, 0⟩ ∧ place ≠ [] ∧ tree.find place ≠ some .folder := by
  obtain ⟨folder, name, hholder, hstep, hslash, henter, hplace, hold⟩ := filePlace_cases h
  have hlocate := locate_eq_ok_of_walk (holder_eq_ok hholder).1
    (walk_of_holder hholder hstep henter) (by simp [hslash])
  exact ⟨hlocate, by simp [hplace], hold⟩

/-- A new folder is placed under its name in its holder, which is no removed folder. -/
theorem newFolderPlace_cases {tree : Tree} {path : String} {place : List String}
    (h : newFolderPlace tree path = .ok place) :
    ∃ folder name, holder tree path = .ok (⟨folder, 0⟩, name) ∧ isStep name = false ∧
      enter ⟨folder, 0⟩ name = .ok ⟨place, 0⟩ ∧ place = folder ++ [name] ∧
      tree.find place = none := by
  rw [newFolderPlace] at h
  split at h
  · cases h
  · rename_i folder name hholder
    split at h
    · cases h
    · rename_i hsteps
      have hstep : isStep name = false := by simpa using hsteps
      split at h
      · cases h
      · rename_i next henter
        obtain ⟨folder, removed⟩ := folder
        obtain ⟨rfl, rfl⟩ := enter_eq_ok hstep henter
        split at h
        · cases h
        · rename_i hentry
          cases h
          exact ⟨folder, name, hholder, hstep, henter, rfl, by simpa [Tree.entryAt] using hentry⟩

theorem newFolderPlace_eq_ok {tree : Tree} {path : String} {place : List String}
    (h : newFolderPlace tree path = .ok place) :
    pathFault path = none ∧ walk tree (origin tree path) (pathNames path) = .ok ⟨place, 0⟩ ∧
      place ≠ [] ∧ tree.find place = none := by
  obtain ⟨folder, name, hholder, hstep, henter, hplace, hnone⟩ := newFolderPlace_cases h
  exact ⟨(holder_eq_ok hholder).1, walk_of_holder hholder hstep henter, by simp [hplace], hnone⟩

/-- Every folder of a tree is a folder of the other one, and the working folder is the same. -/
structure Extends (before after : Tree) : Prop where
  working : after.working = before.working
  folders : ∀ path, before.find path = some .folder → after.find path = some .folder

namespace Extends

theorem refl (tree : Tree) : Extends tree tree := ⟨rfl, fun _ h => h⟩

theorem trans {first second third : Tree} (h : Extends first second) (h' : Extends second third) :
    Extends first third :=
  ⟨h'.working.trans h.working, fun path hf => h'.folders path (h.folders path hf)⟩

theorem put {tree : Tree} {path : List String} (h : tree.find path ≠ some .folder)
    (entry : Entry) : Extends tree (tree.put path entry) := by
  refine ⟨tree.working_put path entry, fun other hother => ?_⟩
  have hne : other ≠ path := by
    rintro rfl
    exact h hother
  rw [Tree.find_put_of_ne hne, hother]

variable {before after : Tree} (h : Extends before after)
include h

theorem entryAt {place : Place} (hp : before.entryAt place = some .folder) :
    after.entryAt place = some .folder := by
  unfold Tree.entryAt at hp ⊢
  split
  · rename_i hremoved
    rw [if_pos hremoved] at hp
    exact h.folders _ hp
  · rfl

theorem origin (path : String) : origin after path = origin before path := by
  unfold FileChanges.origin
  rw [h.working]

theorem walk {here place : Place} {names : List String}
    (hw : walk before here names = .ok place) : walk after here names = .ok place := by
  induction names generalizing here with
  | nil => exact hw
  | cons name names ih =>
    rw [FileTree.walk] at hw ⊢
    split at hw
    · cases hw
    · rename_i hentry
      rw [h.entryAt hentry]
      dsimp only
      split at hw
      · cases hw
      · exact ih hw
    · cases hw

theorem locate {path : String} {place : Place} (hl : locate before path = .ok place) :
    locate after path = .ok place := by
  rw [FileTree.locate, walkFor_eq_ok_iff] at hl ⊢
  rw [h.origin path]
  exact ⟨hl.1, h.walk hl.2⟩

theorem locateFolder {path : String} {place : Place}
    (hl : locateFolder before path = .ok place) : locateFolder after path = .ok place := by
  rw [FileTree.locateFolder] at hl ⊢
  split at hl
  · cases hl
  · rename_i found hfound
    rw [h.locate hfound]
    dsimp only
    split at hl
    · rename_i hentry
      rw [h.entryAt hentry]
      exact hl
    · cases hl
    · cases hl

end Extends

/-- After the change every path that does not hold what it held before is led to by one of the
written paths and holds what was written there; a folder is new. Every folder is still there. -/
structure WritesOnly (writes : List (String × Entry)) (before after : Tree) : Prop
    extends Extends before after where
  changed : ∀ path, after.find path ≠ before.find path →
    ∃ w ∈ writes, locate after w.1 = .ok ⟨path, 0⟩ ∧ after.find path = some w.2 ∧
      (w.2 = .folder → before.find path = none)

namespace WritesOnly

variable {writes : List (String × Entry)}

theorem refl (tree : Tree) : WritesOnly writes tree tree :=
  ⟨.refl tree, fun _ h => absurd rfl h⟩

theorem mono {more : List (String × Entry)} {before after : Tree} (hsub : writes ⊆ more)
    (h : WritesOnly writes before after) : WritesOnly more before after := by
  refine ⟨h.toExtends, fun path hpath => ?_⟩
  obtain ⟨w, hw, hrest⟩ := h.changed path hpath
  exact ⟨w, hsub hw, hrest⟩

theorem trans {first second third : Tree} (h : WritesOnly writes first second)
    (h' : WritesOnly writes second third) : WritesOnly writes first third := by
  refine ⟨h.toExtends.trans h'.toExtends, fun path hpath => ?_⟩
  by_cases hlater : third.find path = second.find path
  · -- The last change of this path was among the first ones, and the path still leads there.
    have hfirst : second.find path ≠ first.find path := fun heq => hpath (hlater.trans heq)
    obtain ⟨w, hw, hlocate, hfind, hnew⟩ := h.changed path hfirst
    exact ⟨w, hw, h'.locate hlocate, hlater.trans hfind, hnew⟩
  · obtain ⟨w, hw, hlocate, hfind, hnew⟩ := h'.changed path hlater
    refine ⟨w, hw, hlocate, hfind, fun hfolder => ?_⟩
    have hnone := hnew hfolder
    by_cases hfirst : second.find path = first.find path
    · rw [← hfirst, hnone]
    · obtain ⟨v, -, -, hsome, -⟩ := h.changed path hfirst
      rw [hnone] at hsome
      cases hsome

theorem put {tree : Tree} {place : List String} {path : String} {entry : Entry}
    (hplace : place ≠ []) (hold : tree.find place ≠ some .folder)
    (hnew : entry = .folder → tree.find place = none)
    (hlocate : locate (tree.put place entry) path = .ok ⟨place, 0⟩) :
    WritesOnly [(path, entry)] tree (tree.put place entry) := by
  refine ⟨.put hold entry, fun other hother => ?_⟩
  obtain rfl : other = place :=
    Decidable.byContradiction fun hne => hother (Tree.find_put_of_ne hne tree entry)
  exact ⟨(path, entry), List.mem_singleton_self _, hlocate, Tree.find_put_self hplace tree entry,
    hnew⟩

end WritesOnly

theorem writeText_eq (path content : String) (tree : Tree) :
    writeText path content tree =
      match filePlace tree path with
      | .error e => (.error e, tree)
      | .ok place => (.ok (), tree.put place (.text content)) := by
  cases h : filePlace tree path with
  | error =>
    simp [writeText, looking, bind, ExceptT.bind, ExceptT.mk, ExceptT.bindCont, StateT.bind, h]
    rfl
  | ok =>
    simp [writeText, looking, putting, bind, ExceptT.bind, ExceptT.mk, ExceptT.bindCont,
      StateT.bind, h]

theorem makeFolder_eq (path : String) (tree : Tree) :
    makeFolder path tree =
      match newFolderPlace tree path with
      | .error e => (.error e, tree)
      | .ok place => (.ok (), tree.put place .folder) := by
  cases h : newFolderPlace tree path with
  | error =>
    simp [makeFolder, looking, bind, ExceptT.bind, ExceptT.mk, ExceptT.bindCont, StateT.bind, h]
    rfl
  | ok =>
    simp [makeFolder, looking, putting, bind, ExceptT.bind, ExceptT.mk, ExceptT.bindCont,
      StateT.bind, h]

theorem writesOnly_writeText (path content : String) (tree : Tree) :
    WritesOnly [(path, .text content)] tree (writeText path content tree).2 := by
  rw [writeText_eq]
  cases h : filePlace tree path with
  | error e => exact .refl tree
  | ok place =>
    obtain ⟨hlocate, hplace, hold⟩ := filePlace_eq_ok h
    exact .put hplace hold nofun ((Extends.put hold _).locate hlocate)

theorem writesOnly_makeFolder (path : String) (tree : Tree) :
    WritesOnly [(path, .folder)] tree (makeFolder path tree).2 := by
  rw [makeFolder_eq]
  cases h : newFolderPlace tree path with
  | error e => exact .refl tree
  | ok place =>
    obtain ⟨hfault, hwalk, hplace, hnone⟩ := newFolderPlace_eq_ok h
    have hold : tree.find place ≠ some .folder := by
      rw [hnone]
      nofun
    have hextends := Extends.put hold .folder
    have hnow : (tree.put place .folder).entryAt ⟨place, 0⟩ = some .folder :=
      Tree.find_put_self hplace tree .folder
    have hwalk' := hextends.walk hwalk
    rw [← hextends.origin path] at hwalk'
    exact .put hplace hold (fun _ => hnone) (locate_eq_ok_of_walk hfault hwalk' fun _ => hnow)

/-- What the making of each folder keeps is kept when missing parents are made as well, whether the
last folder can be made or not. -/
theorem makeFoldersAlong_keeps {P : Tree → Prop} {paths : List String}
    (hstep : ∀ path ∈ paths, ∀ tree, P tree → P (makeFolder path tree).2) {tree : Tree}
    (h : P tree) : P (makeFoldersAlong paths tree).2 := by
  induction paths generalizing tree with
  | nil => exact h
  | cons path paths ih =>
    have hfirst := hstep path List.mem_cons_self
    have hrest (t : Tree) (ht : P t) : P (makeFoldersAlong paths t).2 :=
      ih (fun other hother => hstep other (List.mem_cons_of_mem path hother)) ht
    rw [makeFoldersAlong]
    split
    · exact h
    · dsimp only
      cases hmade : makeFolder path tree with
      | mk result second =>
        have hsecond := hfirst tree h
        rw [hmade] at hsecond
        cases result with
        | ok => exact hsecond
        | error e =>
          cases e with
          | notFound =>
            -- The parents are made first, and then the folder is tried once more.
            dsimp only
            cases hparents : makeFoldersAlong paths second with
            | mk result third =>
              have hthird := hrest second hsecond
              rw [hparents] at hthird
              cases result with
              | error e => exact hthird
              | ok =>
                dsimp only
                have hfourth := hfirst third hthird
                cases hagain : makeFolder path third with
                | mk result fourth =>
                  rw [hagain] at hfourth
                  cases result <;> exact hfourth
          | _ => exact hsecond

/-- Of a path and its parents only those that are missing are made, and nothing else changes,
whether the last of them can be made or not. -/
theorem writesOnly_makeFoldersAlong (paths : List String) (tree : Tree) :
    WritesOnly (paths.map fun path => (path, .folder)) tree (makeFoldersAlong paths tree).2 := by
  refine makeFoldersAlong_keeps (fun path hpath next hnext => ?_) (.refl tree)
  have hmem : (path, Entry.folder) ∈ paths.map fun path => (path, Entry.folder) :=
    List.mem_map_of_mem hpath
  exact hnext.trans ((writesOnly_makeFolder path next).mono (by simpa using hmem))

/-- The path of a folder, where the empty path is that of the working folder. -/
def folderPath (dir : String) : String := if dir.isEmpty then "." else dir

/-- A name that can stand in a folder: it is no path and no step. -/
structure EntryName (name : String) : Prop where
  ne_nil : name.toList ≠ []
  no_slash : '/' ∉ name.toList
  no_step : isStep name = false

theorem pathNames_append (path rest : String) :
    pathNames (path ++ "/" ++ rest) = pathNames path ++ pathNames rest := by
  simp [pathNames, splitOn_append]

theorem exists_of_endsWithSlash {path : String} (h : endsWithSlash path = true) :
    ∃ start, path = start ++ "/" := by
  have hlast : path.toList.getLast? = some '/' := by simpa [endsWithSlash] using h
  obtain ⟨start, hstart⟩ := List.getLast?_eq_some_iff.mp hlast
  exact ⟨String.ofList start, String.toList_inj.mp (by simp [hstart])⟩

theorem pathFault_eq_none_iff {path : String} :
    pathFault path = none ↔
      (∀ c ∈ path.toList, c.toNat ≠ 0) ∧ path.isEmpty = false ∧ path.utf8ByteSize ≤ pathLimit := by
  unfold pathFault
  split
  · rename_i hzero
    obtain ⟨c, hc, hc'⟩ := List.any_eq_true.mp hzero
    simpa using fun h => absurd (of_decide_eq_true hc') (h c hc)
  · rename_i hzero
    have hall : ∀ c ∈ path.toList, c.toNat ≠ 0 := by simpa using hzero
    split
    · simp [*]
    · split
      · simp_all
      · simp_all

theorem pathFault_of_append {path rest : String} (hne : path.isEmpty = false)
    (h : pathFault (path ++ rest) = none) : pathFault path = none := by
  obtain ⟨hzero, -, hlimit⟩ := pathFault_eq_none_iff.mp h
  rw [String.toList_append] at hzero
  rw [String.utf8ByteSize_append] at hlimit
  exact pathFault_eq_none_iff.mpr
    ⟨fun c hc => hzero c (List.mem_append_left _ hc), hne, by omega⟩

theorem isAbsolute_append {path : String} (hne : path.isEmpty = false) (rest : String) :
    isAbsolute (path ++ rest) = isAbsolute path := by
  have hnil : path.toList ≠ [] := by simpa using hne
  obtain ⟨c, cs, hcs⟩ := List.exists_cons_of_ne_nil hnil
  simp [isAbsolute, hcs]

theorem join_empty (name : String) : join "" name = name := by
  simp [join]

namespace EntryName

variable {name : String} (hn : EntryName name)
include hn

theorem isAbsolute_eq : isAbsolute name = false := by
  unfold isAbsolute
  split
  · rfl
  · rename_i c cs hcs
    have hslash := hn.no_slash
    rw [hcs] at hslash
    exact decide_eq_false fun hc => hslash (hc ▸ List.mem_cons_self)

theorem pathNames_eq : pathNames name = [name] := by
  have hempty : name.toList.isEmpty = false := by simpa using hn.ne_nil
  simp [pathNames, splitOn_of_not_mem hn.no_slash, hempty]

theorem pathNames_join (dir : String) : pathNames (join dir name) = pathNames dir ++ [name] := by
  rw [join, hn.isAbsolute_eq, Bool.false_or]
  split
  · rename_i hempty
    obtain rfl : dir = "" := by simpa using hempty
    exact hn.pathNames_eq
  · split
    · rename_i hends
      obtain ⟨start, rfl⟩ := exists_of_endsWithSlash hends
      have hstart : pathNames (start ++ "/") = pathNames start := by
        simpa [pathNames, splitOn] using pathNames_append start ""
      rw [pathNames_append, hstart, hn.pathNames_eq]
    · rw [pathNames_append, hn.pathNames_eq]

theorem join_eq_append {dir : String} (hne : dir.isEmpty = false) :
    ∃ rest, join dir name = dir ++ rest := by
  rw [join, hn.isAbsolute_eq, hne, Bool.or_self, if_neg Bool.false_ne_true]
  split
  · exact ⟨name, rfl⟩
  · exact ⟨"/" ++ name, String.append_assoc⟩

end EntryName

/-- A file that is named in a folder is placed right in the folder. -/
theorem filePlace_join {tree : Tree} {dir name : String} {place : List String}
    (hn : EntryName name) (h : filePlace tree (join dir name) = .ok place) :
    ∃ folder, locateFolder tree (folderPath dir) = .ok ⟨folder, 0⟩ ∧ place = folder ++ [name] := by
  obtain ⟨folder, last, hholder, -, -, -, hplace, -⟩ := filePlace_cases h
  obtain ⟨hfault, hwalk, hentry, hlast⟩ := holder_eq_ok hholder
  rw [hn.pathNames_join] at hwalk hlast
  rw [List.dropLast_concat] at hwalk
  rw [List.getLast?_concat, Option.getD_some] at hlast
  have hlocate : locate tree (folderPath dir) = .ok ⟨folder, 0⟩ := by
    cases hempty : dir.isEmpty with
    | true =>
      obtain rfl : dir = "" := by simpa using hempty
      rw [join_empty] at hwalk
      have horigin : origin tree name = origin tree "." := by
        rw [origin, hn.isAbsolute_eq]
        rfl
      rw [horigin] at hwalk
      exact locate_eq_ok_of_walk rfl
        (walk_concat_eq_ok_iff.mpr ⟨_, hwalk, hentry, enter_stay _⟩) fun _ => hentry
    | false =>
      obtain ⟨rest, hrest⟩ := hn.join_eq_append hempty
      rw [hrest] at hfault hwalk
      rw [origin, isAbsolute_append hempty] at hwalk
      rw [folderPath, hempty]
      exact locate_eq_ok_of_walk (pathFault_of_append hempty hfault) hwalk fun _ => hentry
  refine ⟨folder, ?_, by rw [hplace, hlast]⟩
  rw [locateFolder, hlocate]
  dsimp only
  rw [hentry]

end NeuronKernels.FileChanges
