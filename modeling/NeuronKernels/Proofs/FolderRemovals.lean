import NeuronKernels.Proofs.WellFormedTrees
import NeuronKernels.RunFolders

/-!
# What removals of folders leave alone

A removal takes away what stands at and below a folder, and nothing else (`RemovesOnly`). A place
that was below the folder sinks to what is left above it (`Sinks`), so a path that leads anywhere
after a removal led to the same place before (`RemovesOnly.locateFolder`). From this a row of
removals in one folder is followed: each one reaches the folder of its name, or fails and changes
nothing (`removesOnly_removeAll`), and none can fail as long as the path of the folder around them
still leads there (`removeAll_gone`).
-/

namespace NeuronKernels.FolderRemovals
open FileChanges FileTree RunFolders TextPieces WellFormedTrees

/-- The second place is what is left of the first one after folders on the way to it were
removed. -/
structure Sinks (high low : Place) : Prop where
  above : low.path <+: high.path
  depth : low.removed + low.path.length = high.removed + high.path.length

namespace Sinks

theorem refl (place : Place) : Sinks place place := ⟨List.prefix_refl _, rfl⟩

theorem trans {first second third : Place} (h : Sinks first second) (h' : Sinks second third) :
    Sinks first third :=
  ⟨h'.above.trans h.above, h'.depth.trans h.depth⟩

theorem cutTo {place : Place} {folder : List String} (h : folder <+: place.path) :
    Sinks place (place.cutTo folder) := by
  have hle := h.length_le
  refine ⟨h, ?_⟩
  simp only [Place.cutTo]
  omega

variable {high low : Place} (h : Sinks high low)
include h

theorem eq_of_not_removed (hlow : low.removed = 0) : low = high := by
  obtain ⟨habove, hdepth⟩ := h
  have hle := habove.length_le
  obtain ⟨path, removed⟩ := high
  obtain ⟨lowPath, lowRemoved⟩ := low
  dsimp only at habove hdepth hle hlow
  subst hlow
  obtain rfl : removed = 0 := by omega
  rw [habove.eq_of_length (by omega)]

theorem up : Sinks high.up low.up := by
  by_cases hlow : low.removed = 0
  · rw [h.eq_of_not_removed hlow]
    exact .refl _
  · obtain ⟨habove, hdepth⟩ := h
    obtain ⟨path, removed⟩ := high
    obtain ⟨lowPath, lowRemoved⟩ := low
    obtain ⟨n, rfl⟩ := Nat.exists_eq_succ_of_ne_zero hlow
    dsimp only at habove hdepth
    cases removed with
    | zero =>
      -- The lower place was removed, so the path above it has one name less at least.
      have hlength : lowPath.length ≤ path.dropLast.length := by
        rw [List.length_dropLast]
        omega
      refine ⟨List.prefix_of_prefix_length_le habove (List.dropLast_prefix path) hlength, ?_⟩
      simp only [Place.up, List.length_dropLast]
      omega
    | succ m =>
      refine ⟨habove, ?_⟩
      simp only [Place.up]
      omega

end Sinks

/-- Nothing stands at or below a path. -/
def Gone (tree : Tree) (place : List String) : Prop :=
  ∀ path, place <+: path → tree.find path = none

theorem concat_prefix_concat_iff {folder : List String} {name other : String} :
    folder ++ [name] <+: folder ++ [other] ↔ name = other := by
  simp [List.prefix_append_right_inj]

/-- Entries at and below some places were taken away, and nothing else was changed. -/
structure RemovesOnly (places : List (List String)) (before after : Tree) : Prop where
  working : Sinks before.working after.working
  kept : ∀ path entry, after.find path = some entry → before.find path = some entry
  elsewhere : ∀ path, (∀ place ∈ places, ¬ place <+: path) → after.find path = before.find path
  wellFormed : WellFormed before → WellFormed after

namespace RemovesOnly

variable {places : List (List String)}

theorem refl (tree : Tree) : RemovesOnly places tree tree :=
  ⟨.refl _, fun _ _ h => h, fun _ _ => rfl, fun h => h⟩

theorem trans {first second third : Tree} (h : RemovesOnly places first second)
    (h' : RemovesOnly places second third) : RemovesOnly places first third where
  working := h.working.trans h'.working
  kept path entry hfind := h.kept path entry (h'.kept path entry hfind)
  elsewhere path hpath := (h'.elsewhere path hpath).trans (h.elsewhere path hpath)
  wellFormed hfirst := h'.wellFormed (h.wellFormed hfirst)

theorem mono {more : List (List String)} {before after : Tree} (hsub : places ⊆ more)
    (h : RemovesOnly places before after) : RemovesOnly more before after :=
  { h with elsewhere := fun path hpath => h.elsewhere path fun place hp => hpath place (hsub hp) }

variable {before after : Tree} (h : RemovesOnly places before after)
include h

theorem gone {place : List String} (hgone : Gone before place) : Gone after place := by
  intro path hpath
  cases hfind : after.find path with
  | none => rfl
  | some entry =>
    have hkept := h.kept path entry hfind
    rw [hgone path hpath] at hkept
    cases hkept

end RemovesOnly

theorem find_filter (keep : List String → Bool) (entries : List (List String × Entry))
    (path : List String) :
    (entries.filter fun e => keep e.1).find? (fun e => e.1 == path) =
      if keep path then entries.find? (fun e => e.1 == path) else none := by
  induction entries with
  | nil => simp
  | cons e rest ih =>
    by_cases hpath : e.1 = path
    · cases hkeep : keep path <;> simp [hpath, hkeep, ih]
    · cases hkeep : keep e.1 <;> simp [hpath, hkeep, ih]

theorem find_clear (tree : Tree) (folder path : List String) :
    (tree.clear folder).find path =
      if folder <+: path ∧ path ≠ folder then none else tree.find path := by
  have key := find_filter (fun p => !(folder.isPrefixOf p) || p == folder) tree.entries path
  unfold Tree.find Tree.clear
  by_cases hroot : path = []
  · subst hroot
    have hfolder : ¬ (folder <+: [] ∧ [] ≠ folder) := fun ⟨hp, hne⟩ =>
      hne (List.prefix_nil.mp hp).symm
    rw [if_pos rfl, if_neg hfolder]
    rfl
  · rw [if_neg hroot, if_neg hroot, key]
    simp only [← List.isPrefixOf_iff_prefix]
    cases folder.isPrefixOf path <;> by_cases heq : path = folder <;> simp [heq]

theorem find_erase {place : List String} (hne : place ≠ []) (tree : Tree) (path : List String) :
    (tree.erase place).find path = if place <+: path then none else tree.find path := by
  have key := find_filter (fun p => !(place.isPrefixOf p)) tree.entries path
  unfold Tree.find Tree.erase
  by_cases hroot : path = []
  · subst hroot
    simp [hne]
  · rw [if_neg hroot, if_neg hroot, key]
    simp only [← List.isPrefixOf_iff_prefix]
    cases place.isPrefixOf path <;> simp

theorem below_of_below_dropLast {folder path : List String} (h : folder <+: path.dropLast)
    (hne : path.dropLast ≠ folder) : folder <+: path ∧ path ≠ folder := by
  refine ⟨h.trans (List.dropLast_prefix path), ?_⟩
  rintro rfl
  have hlength := h.length_le
  rw [List.length_dropLast] at hlength
  have hnil : path = [] := List.eq_nil_of_length_eq_zero (by omega)
  subst hnil
  exact hne rfl

theorem wellFormed_clear {tree : Tree} (hw : WellFormed tree) {folder : List String}
    (hfolder : tree.find folder = some .folder) : WellFormed (tree.clear folder) := by
  refine ⟨(List.filter_sublist.map Prod.fst).nodup hw.once,
    fun e he => hw.named e (List.mem_of_mem_filter he), fun e he => ?_, ?_⟩
  · obtain ⟨hmem, hkeep⟩ := List.mem_filter.mp he
    rw [find_clear, if_neg, hw.held e hmem]
    rintro ⟨hbelow, hne⟩
    obtain ⟨hbelow', hne'⟩ := below_of_below_dropLast hbelow hne
    simp [List.isPrefixOf_iff_prefix.mpr hbelow', hne'] at hkeep
  · rw [find_clear]
    simp only [Tree.clear]
    split
    · rw [if_neg (by simp [Place.cutTo])]
      exact hfolder
    · rename_i houtside
      rw [if_neg (fun hb => houtside (List.isPrefixOf_iff_prefix.mpr hb.1)), hw.working]

theorem wellFormed_erase {tree : Tree} (hw : WellFormed tree) {place : List String}
    (hne : place ≠ []) (hplace : tree.find place = some .folder) :
    WellFormed (tree.erase place) := by
  refine ⟨(List.filter_sublist.map Prod.fst).nodup hw.once,
    fun e he => hw.named e (List.mem_of_mem_filter he), fun e he => ?_, ?_⟩
  · obtain ⟨hmem, hkeep⟩ := List.mem_filter.mp he
    rw [find_erase hne, if_neg, hw.held e hmem]
    intro hbelow
    have hbelow' := hbelow.trans (List.dropLast_prefix e.1)
    simp [List.isPrefixOf_iff_prefix.mpr hbelow'] at hkeep
  · rw [find_erase hne]
    simp only [Tree.erase]
    split
    · have hlength := List.length_pos_iff.mpr hne
      have hshort : ¬ place <+: place.dropLast := fun hb => by
        have hle := hb.length_le
        rw [List.length_dropLast] at hle
        omega
      rw [if_neg (by simpa [Place.cutTo] using hshort)]
      exact hw.find_dropLast hplace
    · rename_i houtside
      rw [if_neg (fun hb => houtside (List.isPrefixOf_iff_prefix.mpr hb)), hw.working]

theorem removesOnly_clear {tree : Tree} {folder : List String}
    (hfolder : tree.find folder = some .folder) :
    RemovesOnly [folder] tree (tree.clear folder) where
  working := by
    simp only [Tree.clear]
    split
    · rename_i hbelow
      exact .cutTo (List.isPrefixOf_iff_prefix.mp hbelow)
    · exact .refl _
  kept path entry hfind := by
    rw [find_clear] at hfind
    split at hfind
    · cases hfind
    · exact hfind
  elsewhere path hpath := by
    rw [find_clear, if_neg (fun hb => hpath folder (List.mem_singleton_self _) hb.1)]
  wellFormed hw := wellFormed_clear hw hfolder

theorem removesOnly_erase {tree : Tree} {place : List String} (hne : place ≠ [])
    (hplace : tree.find place = some .folder) : RemovesOnly [place] tree (tree.erase place) where
  working := by
    simp only [Tree.erase]
    split
    · rename_i hbelow
      exact .cutTo ((List.dropLast_prefix place).trans (List.isPrefixOf_iff_prefix.mp hbelow))
    · exact .refl _
  kept path entry hfind := by
    rw [find_erase hne] at hfind
    split at hfind
    · cases hfind
    · exact hfind
  elsewhere path hpath := by
    rw [find_erase hne, if_neg (hpath place (List.mem_singleton_self _))]
  wellFormed hw := wellFormed_erase hw hne hplace

/-- A place that sinks to another one as far as folders of the tree are removed below it. -/
structure SinksIn (tree : Tree) (high low : Place) : Prop extends Sinks high low where
  folder : low.removed ≠ 0 → tree.find high.path = some .folder

namespace SinksIn

variable {tree : Tree} {high low : Place} (h : SinksIn tree high low)
include h

theorem entryAt (hlow : low.removed ≠ 0) : tree.entryAt high = some .folder := by
  unfold Tree.entryAt
  split
  · exact h.folder hlow
  · rfl

theorem up (hw : WellFormed tree) : SinksIn tree high.up low.up := by
  refine ⟨h.toSinks.up, fun hlow => ?_⟩
  have hfolder : tree.find high.path = some .folder := h.folder fun hzero => by
    simp [Place.up, hzero] at hlow
  unfold Place.up
  split
  · exact hw.find_dropLast hfolder
  · exact hfolder

theorem enter (hw : WellFormed tree) {name : String} {next : Place}
    (hnext : enter low name = .ok next) :
    ∃ next', enter high name = .ok next' ∧ SinksIn tree next' next := by
  by_cases hstay : name = "."
  · subst hstay
    cases hnext
    exact ⟨high, rfl, h⟩
  by_cases hup : name = ".."
  · subst hup
    cases hnext
    exact ⟨high.up, rfl, h.up hw⟩
  · have hstep : isStep name = false := by simp [isStep, hstay, hup]
    obtain ⟨hlow, rfl⟩ := enter_eq_ok hstep hnext
    rw [h.eq_of_not_removed hlow] at hnext ⊢
    exact ⟨_, hnext, .refl _, fun hzero => absurd rfl hzero⟩

end SinksIn

namespace RemovesOnly

variable {places : List (List String)} {before after : Tree} (h : RemovesOnly places before after)
include h

theorem entryAt {high low : Place} (hs : SinksIn before high low)
    (hlow : after.entryAt low = some .folder) : before.entryAt high = some .folder := by
  by_cases hremoved : low.removed = 0
  · rw [hs.eq_of_not_removed hremoved] at hlow
    unfold Tree.entryAt at hlow ⊢
    split
    · rename_i hzero
      rw [if_pos hzero] at hlow
      exact h.kept _ _ hlow
    · rfl
  · exact hs.entryAt hremoved

/-- What can still be walked was walked before, to a place that sinks to the one now. -/
theorem walk (hw : WellFormed before) {names : List String} {high low place : Place}
    (hs : SinksIn before high low) (hwalk : walk after low names = .ok place) :
    ∃ place', FileTree.walk before high names = .ok place' ∧ SinksIn before place' place := by
  induction names generalizing high low with
  | nil =>
    cases hwalk
    exact ⟨high, rfl, hs⟩
  | cons name names ih =>
    obtain ⟨hentry, next, hnext, hrest⟩ := walk_cons_eq_ok_iff.mp hwalk
    obtain ⟨next', hnext', hs'⟩ := hs.enter hw hnext
    obtain ⟨place', hrest', hplace⟩ := ih hs' hrest
    exact ⟨place', walk_cons_eq_ok_iff.mpr ⟨h.entryAt hs hentry, next', hnext', hrest'⟩, hplace⟩

theorem origin (hw : WellFormed before) (path : String) :
    SinksIn before (origin before path) (origin after path) := by
  unfold FileChanges.origin
  split
  · exact ⟨.refl _, fun hzero => absurd rfl hzero⟩
  · exact ⟨h.working, fun _ => hw.working⟩

/-- A path that leads to a folder after a removal led there before. -/
theorem locateFolder (hw : WellFormed before) {path : String} {folder : List String}
    (hl : locateFolder after path = .ok ⟨folder, 0⟩) :
    FileTree.locateFolder before path = .ok ⟨folder, 0⟩ := by
  obtain ⟨hfault, hwalk, hentry⟩ := locateFolder_eq_ok_iff.mp hl
  obtain ⟨place, hwalk', hs⟩ := h.walk hw (h.origin hw path) hwalk
  obtain rfl := hs.eq_of_not_removed rfl
  exact locateFolder_eq_ok_iff.mpr ⟨hfault, hwalk', h.entryAt hs hentry⟩

end RemovesOnly

/-- The path leads to one folder, if to any that is not removed. -/
def LeadsOnlyTo (folder : List String) (path : String) (tree : Tree) : Prop :=
  ∀ found, locateFolder tree path = .ok ⟨found, 0⟩ → found = folder

theorem LeadsOnlyTo.of_removesOnly {folder : List String} {path : String} {before after : Tree}
    {places : List (List String)} (hto : LeadsOnlyTo folder path before)
    (hw : WellFormed before) (h : RemovesOnly places before after) :
    LeadsOnlyTo folder path after :=
  fun found hl => hto found (h.locateFolder hw hl)

section
variable {tree : Tree} {base name : String} {folder : List String}
  (hn : FileName name) (hne : base.isEmpty = false) (hw : WellFormed tree)
  (hto : LeadsOnlyTo folder base tree)
include hn hne

theorem locateFolder_join (hbase : locateFolder tree base = .ok ⟨folder, 0⟩)
    (hfault : pathFault (join base name) = none)
    (hfind : tree.find (folder ++ [name]) = some .folder) :
    locateFolder tree (join base name) = .ok ⟨folder ++ [name], 0⟩ :=
  locateFolder_eq_ok_iff_locate.mpr
    ⟨(hn.locate_join_eq_ok_iff hne).mpr ⟨hfault, folder, hbase, rfl⟩, hfind⟩

theorem of_locateFolder_join {place : Place} (hto : LeadsOnlyTo folder base tree)
    (h : locateFolder tree (join base name) = .ok place) :
    place = ⟨folder ++ [name], 0⟩ ∧ tree.find (folder ++ [name]) = some .folder := by
  obtain ⟨hlocate, hentry⟩ := locateFolder_eq_ok_iff_locate.mp h
  obtain ⟨-, found, hbase, rfl⟩ := (hn.locate_join_eq_ok_iff hne).mp hlocate
  obtain rfl := hto found hbase
  exact ⟨rfl, hentry⟩

include hw hto

/-- A removal in a folder fails and changes nothing, or empties the folder of its name; that folder
stays only if the path around it leads through it. -/
theorem removeFolder_join_cases :
    (∃ cause, removeFolder (join base name) tree = (.error cause, tree) ∧
      ∀ place, locateFolder tree (join base name) ≠ .ok place) ∨
    (tree.find (folder ++ [name]) = some .folder ∧
      ((removeFolder (join base name) tree = (.ok (), tree.clear (folder ++ [name])) ∧
          locateFolder (tree.clear (folder ++ [name])) base ≠ .ok ⟨folder, 0⟩) ∨
        removeFolder (join base name) tree =
          (.ok (), (tree.clear (folder ++ [name])).erase (folder ++ [name])))) := by
  cases hfirst : locateFolder tree (join base name) with
  | error cause =>
    refine .inl ⟨cause, ?_, nofun⟩
    rw [removeFolder, hfirst]
  | ok place =>
    obtain ⟨rfl, hfind⟩ := of_locateFolder_join hn hne hto hfirst
    refine .inr ⟨hfind, ?_⟩
    have hto' := hto.of_removesOnly hw (removesOnly_clear hfind)
    simp only [removeFolder, hfirst]
    split
    · rename_i found hsecond
      obtain ⟨-, found', hbase, heq⟩ := (hn.locate_join_eq_ok_iff hne).mp hsecond
      obtain rfl := hto' found' hbase
      cases heq
      exact .inr rfl
    · rename_i hsecond
      refine .inl ⟨rfl, fun hbase => ?_⟩
      have hfault := (locateFolder_eq_ok_iff.mp hfirst).1
      exact hsecond _ ((hn.locate_join_eq_ok_iff hne).mpr ⟨hfault, folder, hbase, rfl⟩)

theorem removesOnly_removeFolder :
    RemovesOnly [folder ++ [name]] tree (removeFolder (join base name) tree).2 := by
  obtain ⟨cause, h, -⟩ | ⟨hfind, ⟨h, -⟩ | h⟩ := removeFolder_join_cases hn hne hw hto <;> rw [h]
  · exact .refl tree
  · exact removesOnly_clear hfind
  · have hstays : (tree.clear (folder ++ [name])).find (folder ++ [name]) = some .folder := by
      rw [find_clear, if_neg (by simp), hfind]
    exact (removesOnly_clear hfind).trans (removesOnly_erase (by simp) hstays)

/-- A removal is done if the path around the folder still leads there afterwards. -/
theorem removeFolder_gone (hfault : pathFault (join base name) = none)
    (hfind : tree.find (folder ++ [name]) = some .folder)
    (hafter : locateFolder (removeFolder (join base name) tree).2 base = .ok ⟨folder, 0⟩) :
    (removeFolder (join base name) tree).1 = .ok () ∧
      Gone (removeFolder (join base name) tree).2 (folder ++ [name]) := by
  have hbefore := (removesOnly_removeFolder hn hne hw hto).locateFolder hw hafter
  obtain ⟨cause, h, hnone⟩ | ⟨-, ⟨h, hlost⟩ | h⟩ := removeFolder_join_cases hn hne hw hto
  · exact absurd (locateFolder_join hn hne hbefore hfault hfind) (hnone _)
  · rw [h] at hafter
    exact absurd hafter hlost
  · rw [h]
    exact ⟨rfl, fun path hpath => by rw [find_erase (by simp), if_pos hpath]⟩

end

section
variable {tree : Tree} {base : String} {folder : List String} {names : List String}
  (hne : base.isEmpty = false) (hw : WellFormed tree) (hto : LeadsOnlyTo folder base tree)
  (hnames : ∀ name ∈ names, FileName name)
include hne hw hto hnames

theorem removesOnly_removeAll :
    RemovesOnly (names.map (folder ++ [·])) tree (removeAll (names.map (join base)) tree).2 := by
  induction names generalizing tree with
  | nil => exact .refl tree
  | cons name names ih =>
    have hfirst := removesOnly_removeFolder (hnames name List.mem_cons_self) hne hw hto
    have hrest := ih (hfirst.wellFormed hw) (hto.of_removesOnly hw hfirst)
      fun other hother => hnames other (List.mem_cons_of_mem name hother)
    have hall := (hfirst.mono (by simp)).trans
      (hrest.mono (List.subset_cons_self (folder ++ [name]) (names.map (folder ++ [·]))))
    rw [List.map_cons, List.map_cons, removeAll]
    cases hstep : removeFolder (join base name) tree with
    | mk result next =>
      rw [hstep] at hall
      cases result <;> exact hall

/-- A row of removals is done if the path around the folders still leads there afterwards. -/
theorem removeAll_gone (hfault : ∀ name ∈ names, pathFault (join base name) = none)
    (hfind : ∀ name ∈ names, tree.find (folder ++ [name]) = some .folder) (hnodup : names.Nodup)
    (hafter : locateFolder (removeAll (names.map (join base)) tree).2 base = .ok ⟨folder, 0⟩) :
    (removeAll (names.map (join base)) tree).1 = [] ∧
      ∀ name ∈ names, Gone (removeAll (names.map (join base)) tree).2 (folder ++ [name]) := by
  induction names generalizing tree with
  | nil => exact ⟨rfl, nofun⟩
  | cons name names ih =>
    have hname := hnames name List.mem_cons_self
    have hnames' : ∀ other ∈ names, FileName other := fun other hother =>
      hnames other (List.mem_cons_of_mem name hother)
    obtain ⟨hnew, hnodup'⟩ := List.nodup_cons.mp hnodup
    have hfirst := removesOnly_removeFolder hname hne hw hto
    have hdone := removeFolder_gone hname hne hw hto (hfault name List.mem_cons_self)
      (hfind name List.mem_cons_self)
    rw [List.map_cons, removeAll] at hafter ⊢
    cases hstep : removeFolder (join base name) tree with
    | mk result next =>
      rw [hstep] at hafter hfirst hdone
      dsimp only at hafter hfirst hdone
      have hw' := hfirst.wellFormed hw
      have hto' := hto.of_removesOnly hw hfirst
      have hrest := removesOnly_removeAll hne hw' hto' hnames'
      have hafter' :
          locateFolder (removeAll (names.map (join base)) next).2 base = .ok ⟨folder, 0⟩ := by
        cases result <;> exact hafter
      obtain ⟨rfl, hgone⟩ := hdone (hrest.locateFolder hw' hafter')
      -- The other folders are beside this one, so they are still there.
      have hfind' : ∀ other ∈ names, next.find (folder ++ [other]) = some .folder := by
        intro other hother
        rw [hfirst.elsewhere, hfind other (List.mem_cons_of_mem name hother)]
        rintro place hplace hbelow
        rw [List.mem_singleton.mp hplace, concat_prefix_concat_iff] at hbelow
        exact hnew (hbelow ▸ hother)
      obtain ⟨hnone, hrestGone⟩ := ih hw' hto' hnames'
        (fun other hother => hfault other (List.mem_cons_of_mem name hother)) hfind' hnodup' hafter'
      refine ⟨hnone, fun other hother => ?_⟩
      obtain rfl | hother := List.mem_cons.mp hother
      · exact hrest.gone hgone
      · exact hrestGone other hother

end

end NeuronKernels.FolderRemovals
