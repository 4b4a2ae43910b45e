import NeuronKernels.DebugFlags
import NeuronKernels.Proofs.WrittenStamps
import Mathlib.Data.List.Sort

/-!
# Which names are switched on

Flags are the names that their sources switch on (`mem_names_ofArguments`), in ascending order
(`pairwise_ofArguments`). Ascending lists with the same members are equal, so only what the sources
switch on counts (`ofArguments_eq_of_switchedOn_iff`): not the order of the arguments, nor how often
one is given, nor the order of the items in the text of the variable. A text of several items has a
comma in it and is never the word for all parts, in whatever order they are (`eq_of_trimmed_all`).
-/

namespace NeuronKernels.SwitchedNames
open BlankCharacters DebugFlags TextPieces WrittenStamps

/-- A text without the blanks at its ends. -/
def trimmed (text : String) : String := String.ofList (trim text.toList)

/-- The text consists of the items with commas between them. -/
structure Listed (items : List String) (text : String) : Prop where
  begun : items ≠ []
  plain : ∀ item ∈ items, ',' ∉ item.toList
  joined : text = joinWith "," items

/-- Why a name is switched on by arguments and by the text of the variable, if there is one. -/
inductive SwitchedOn (arguments : List String) (variableText : Option String) (name : String) : Prop
  | argument (given : "--debug-" ++ name ∈ arguments) (single : name ≠ "all")
  | allArguments (given : "--debug-all" ∈ arguments) (known : name ∈ knownParts)
  | allText (text : String) (set : variableText = some text) (all : trimmed text = "all")
      (known : name ∈ knownParts)
  | item (text : String) (items : List String) (item : String) (set : variableText = some text)
      (single : trimmed text ≠ "all") (listed : Listed items text) (mem : item ∈ items)
      (named : name = trimmed item) (full : name ≠ "")

/-- The directive of a name, with `-` written `_`. -/
def directive (name : String) : String :=
  String.ofList (name.toList.map fun c => if c = '-' then '_' else c) ++ "=debug"

theorem Listed.splitOn_eq {items : List String} {text : String} (h : Listed items text) :
    splitOn ',' text.toList = items.map String.toList := by
  rw [h.joined]
  exact splitOn_joinWith rfl h.begun h.plain

theorem Listed.unique {items others : List String} {text : String} (h : Listed items text)
    (h' : Listed others text) : items = others :=
  List.map_injective_iff.mpr (fun _ _ => String.ext) (h.splitOn_eq.symm.trans h'.splitOn_eq)

theorem exists_listed (text : String) : ∃ items, Listed items text := by
  refine ⟨(splitOn ',' text.toList).map String.ofList, ?_, ?_, ?_⟩
  · simpa using splitOn_ne_nil ',' text.toList
  · intro item mem
    obtain ⟨piece, there, rfl⟩ := List.mem_map.mp mem
    simpa using (of_mem_splitOn there).1
  · rw [joinWith_splitOn rfl, String.ofList_toList]

theorem mem_dropBlanks {c : Char} {cs : List Char} (mem : c ∈ cs) (full : isBlank c = false) :
    c ∈ dropBlanks cs := by
  induction cs with
  | nil => cases mem
  | cons d cs ih =>
    unfold dropBlanks
    split
    · rename_i blank
      obtain rfl | later := List.mem_cons.mp mem
      · rw [full] at blank
        cases blank
      · exact ih later
    · exact mem

theorem mem_trim {c : Char} {cs : List Char} (mem : c ∈ cs) (full : isBlank c = false) :
    c ∈ trim cs := by
  have back : c ∈ (dropBlanks cs).reverse := List.mem_reverse.mpr (mem_dropBlanks mem full)
  exact List.mem_reverse.mpr (mem_dropBlanks back full)

/-- The word for all parts is the only item of its text. -/
theorem Listed.eq_singleton {items : List String} {text : String} (h : Listed items text)
    (all : trimmed text = "all") : items = [text] := by
  obtain ⟨begun, plain, joined⟩ := h
  match items with
  | [] => exact absurd rfl begun
  | [item] => exact congrArg (fun item => [item]) joined.symm
  | item :: next :: rest =>
    have comma : ',' ∈ text.toList := by simp [joined, joinWith]
    have kept : ',' ∈ (trimmed text).toList := by
      rw [trimmed, String.toList_ofList]
      exact mem_trim comma (by decide)
    rw [all] at kept
    exact absurd kept (by decide)

theorem eq_of_trimmed_all {items others : List String} {text other : String}
    (h : Listed items text) (h' : Listed others other) (same : items.Perm others)
    (all : trimmed text = "all") : other = text := by
  have one := h.eq_singleton all
  rw [one, List.singleton_perm] at same
  rw [h'.joined, ← same]
  rfl

theorem mem_namesOfArgument {argument name : String} :
    name ∈ namesOfArgument argument ↔
      argument = "--debug-" ++ name ∧ name ≠ "all" ∨
        argument = "--debug-all" ∧ name ∈ knownParts := by
  have start (rest : String) : dropStart flagStart ("--debug-" ++ rest) = some rest :=
    dropStart_eq_some_iff.mpr rfl
  constructor
  · intro mem
    unfold namesOfArgument at mem
    cases cut : dropStart flagStart argument with
    | none => simp [cut] at mem
    | some rest =>
      obtain rfl : argument = "--debug-" ++ rest := dropStart_eq_some_iff.mp cut
      simp only [cut] at mem
      split at mem
      · rename_i all
        subst all
        exact .inr ⟨rfl, mem⟩
      · rename_i single
        obtain rfl := List.mem_singleton.mp mem
        exact .inl ⟨rfl, single⟩
  · rintro (⟨rfl, single⟩ | ⟨rfl, known⟩)
    · simp [namesOfArgument, start, single]
    · have cut : dropStart flagStart "--debug-all" = some "all" := start "all"
      simpa [namesOfArgument, cut] using known

theorem mem_namesOfText {text name : String} {items : List String} (listed : Listed items text) :
    name ∈ namesOfText text ↔
      trimmed text = "all" ∧ name ∈ knownParts ∨
        trimmed text ≠ "all" ∧ name ≠ "" ∧ ∃ item ∈ items, name = trimmed item := by
  unfold namesOfText
  dsimp only
  rw [listed.splitOn_eq, ← trimmed]
  split
  · rename_i all
    simp [all]
  · rename_i single
    simp only [single, ne_eq, not_false_eq_true, true_and, false_and, false_or, List.mem_map,
      List.mem_filter, List.map_map, Function.comp_apply]
    constructor
    · rintro ⟨_, ⟨⟨item, mem, rfl⟩, full⟩, rfl⟩
      exact ⟨by simpa using full, item, mem, rfl⟩
    · rintro ⟨full, item, mem, rfl⟩
      exact ⟨trim item.toList, ⟨⟨item, mem, rfl⟩, by simpa [trimmed] using full⟩, rfl⟩

theorem mem_names_enableAll {names : List String} {f : Flags} {name : String} :
    name ∈ (f.enableAll names).names ↔ name ∈ names ∨ name ∈ f.names := by
  unfold Flags.enableAll
  induction names generalizing f with
  | nil => simp
  | cons first rest ih =>
    rw [List.foldl_cons, ih, Flags.enable, mem_insertName, List.mem_cons]
    tauto

theorem pairwise_insertName {names : List String} (ascending : names.Pairwise (· < ·))
    (name : String) : (insertName name names).Pairwise (· < ·) := by
  induction names with
  | nil => exact List.pairwise_singleton _ _
  | cons other rest ih =>
    obtain ⟨first, others⟩ := List.pairwise_cons.mp ascending
    unfold insertName
    split
    · exact ascending
    · rename_i different
      split
      · rename_i before
        rw [precedes_iff_lt] at before
        refine List.pairwise_cons.mpr ⟨fun later mem => ?_, ascending⟩
        obtain rfl | mem := List.mem_cons.mp mem
        · exact before
        · exact before.trans (first later mem)
      · rename_i behind
        rw [precedes_iff_lt, not_lt] at behind
        refine List.pairwise_cons.mpr ⟨fun later mem => ?_, ih others⟩
        obtain rfl | mem := mem_insertName.mp mem
        · exact lt_of_le_of_ne behind different
        · exact first later mem

theorem pairwise_enableAll {f : Flags} (ascending : f.names.Pairwise (· < ·))
    (names : List String) : (f.enableAll names).names.Pairwise (· < ·) := by
  unfold Flags.enableAll
  induction names generalizing f with
  | nil => exact ascending
  | cons name rest ih => exact ih (pairwise_insertName ascending name)

theorem pairwise_ofArguments (arguments : List String) (variableText : Option String) :
    (ofArguments arguments variableText).names.Pairwise (· < ·) :=
  pairwise_enableAll (pairwise_enableAll List.Pairwise.nil _) _

theorem mem_names_ofArguments {arguments : List String} {variableText : Option String}
    {name : String} :
    name ∈ (ofArguments arguments variableText).names ↔ SwitchedOn arguments variableText name := by
  have here : name ∈ arguments.flatMap namesOfArgument ↔
      "--debug-" ++ name ∈ arguments ∧ name ≠ "all" ∨
        "--debug-all" ∈ arguments ∧ name ∈ knownParts := by
    simp only [List.mem_flatMap, mem_namesOfArgument, and_or_left, exists_or, ← and_assoc,
      exists_and_right, exists_eq_right]
  have there : name ∈ (variableText.map namesOfText).getD [] ↔
      ∃ text, variableText = some text ∧ name ∈ namesOfText text := by
    cases variableText <;> simp
  have nowhere : name ∉ Flags.none.names := List.not_mem_nil
  rw [ofArguments, mem_names_enableAll, mem_names_enableAll, here, there, or_iff_left nowhere]
  constructor
  · rintro (⟨text, set, mem⟩ | ⟨given, single⟩ | ⟨given, known⟩)
    · obtain ⟨items, listed⟩ := exists_listed text
      obtain ⟨all, known⟩ | ⟨single, full, item, mem, named⟩ := (mem_namesOfText listed).mp mem
      · exact .allText text set all known
      · exact .item text items item set single listed mem named full
    · exact .argument given single
    · exact .allArguments given known
  · rintro (⟨given, single⟩ | ⟨given, known⟩ | ⟨text, set, all, known⟩ |
      ⟨text, items, item, set, single, listed, mem, named, full⟩)
    · exact .inr (.inl ⟨given, single⟩)
    · exact .inr (.inr ⟨given, known⟩)
    · obtain ⟨items, listed⟩ := exists_listed text
      exact .inl ⟨text, set, (mem_namesOfText listed).mpr (.inl ⟨all, known⟩)⟩
    · exact .inl ⟨text, set, (mem_namesOfText listed).mpr (.inr ⟨single, full, item, mem, named⟩)⟩

/-- Flags are determined by what their sources switch on. -/
theorem ofArguments_eq_of_switchedOn_iff {arguments others : List String}
    {variableText otherText : Option String}
    (same : ∀ name, SwitchedOn arguments variableText name ↔ SwitchedOn others otherText name) :
    ofArguments arguments variableText = ofArguments others otherText := by
  have members (name : String) : name ∈ (ofArguments arguments variableText).names ↔
      name ∈ (ofArguments others otherText).names := by
    rw [mem_names_ofArguments, mem_names_ofArguments, same]
  have names := (pairwise_ofArguments arguments variableText).eq_of_mem_iff
    (pairwise_ofArguments others otherText) members
  exact congrArg Flags.mk names

theorem SwitchedOn.mono {arguments more : List String} {variableText : Option String}
    {name : String} (h : SwitchedOn arguments variableText name) (added : arguments ⊆ more) :
    SwitchedOn more variableText name := by
  cases h with
  | argument given single => exact .argument (added given) single
  | allArguments given known => exact .allArguments (added given) known
  | allText text set all known => exact .allText text set all known
  | item text items item set single listed mem named full =>
    exact .item text items item set single listed mem named full

theorem SwitchedOn.permuted {arguments items others : List String} {text other name : String}
    (h : SwitchedOn arguments (some text) name) (listed : Listed items text)
    (listed' : Listed others other) (same : items.Perm others) :
    SwitchedOn arguments (some other) name := by
  cases h with
  | argument given single => exact .argument given single
  | allArguments given known => exact .allArguments given known
  | allText _ set all known =>
    obtain rfl := Option.some.inj set
    obtain rfl := eq_of_trimmed_all listed listed' same all
    exact .allText _ rfl all known
  | item _ _ item set single own mem named full =>
    obtain rfl := Option.some.inj set
    obtain rfl := listed.unique own
    refine .item other others item rfl (fun all => ?_) listed' (same.mem_iff.mp mem) named full
    obtain rfl := eq_of_trimmed_all listed' listed same.symm all
    exact single all

/-- A name is switched on for one of four reasons and for no other. The order of the arguments does
not count, nor does how often one is given, nor the order of the items in the text of the variable,
and more arguments switch on more names. The filter has one directive for each name that is switched
on, in ascending order of the names, and the base level behind them. -/
theorem flags_are_sets (arguments : List String) (variableText : Option String) :
    (∀ name, (ofArguments arguments variableText).isEnabled name = true ↔
      SwitchedOn arguments variableText name) ∧
    (∀ others : List String, (∀ argument, argument ∈ others ↔ argument ∈ arguments) →
      ofArguments others variableText = ofArguments arguments variableText) ∧
    (∀ items others text other, Listed items text → Listed others other → items.Perm others →
      ofArguments arguments (some other) = ofArguments arguments (some text)) ∧
    (∀ more, arguments ⊆ more → ∀ name,
      (ofArguments arguments variableText).isEnabled name = true →
        (ofArguments more variableText).isEnabled name = true) ∧
    ∃ names : List String, names.Pairwise (· < ·) ∧
      (∀ name, name ∈ names ↔ SwitchedOn arguments variableText name) ∧
      ∀ baseLevel, filterText (ofArguments arguments variableText) baseLevel =
        joinWith "," (names.map directive ++ [baseLevel]) := by
  have enabled (arguments : List String) (name : String) :
      (ofArguments arguments variableText).isEnabled name = true ↔
        SwitchedOn arguments variableText name := by
    rw [Flags.isEnabled, List.contains_iff_mem, mem_names_ofArguments]
  refine ⟨enabled arguments, fun others same => ?_, ?_, fun more added name on => ?_, _,
    pairwise_ofArguments arguments variableText, fun name => mem_names_ofArguments,
    fun baseLevel => rfl⟩
  · refine ofArguments_eq_of_switchedOn_iff fun name => ⟨fun h => h.mono ?_, fun h => h.mono ?_⟩
    · exact fun argument => (same argument).mp
    · exact fun argument => (same argument).mpr
  · intro items others text other listed listed' same
    exact ofArguments_eq_of_switchedOn_iff fun name =>
      ⟨fun h => h.permuted listed' listed same.symm, fun h => h.permuted listed listed' same⟩
  · exact (enabled more name).mpr (((enabled arguments name).mp on).mono added)

/-- In a list of items the word for all parts is a name like any other. -/
theorem swapped_items_agree :
    let arguments := ["--name", "net", "--debug-x"]
    let text := "kernelnet, all "
    Listed ["kernelnet", " all "] text ∧ Listed [" all ", "kernelnet"] " all ,kernelnet" ∧
      ofArguments ["--debug-x", "--debug-x", "net", "--name"] (some text) =
        ofArguments arguments (some text) ∧
      ofArguments arguments (some " all ,kernelnet") = ofArguments arguments (some text) ∧
      (ofArguments ("--debug-kernelnet-config" :: arguments) (some text)).isEnabled "all" = true ∧
      (ofArguments arguments (some text)).isEnabled "kernelnet-neural" = false := by
  intro arguments text
  obtain ⟨enabled, as_set, reordered, grows, -⟩ := flags_are_sets arguments (some text)
  have listed : Listed ["kernelnet", " all "] text := ⟨by decide, by decide, by decide⟩
  have swapped : Listed [" all ", "kernelnet"] " all ,kernelnet" :=
    ⟨by decide, by decide, by decide⟩
  have on : SwitchedOn arguments (some text) "all" :=
    .item text _ " all " rfl (by decide) listed (by decide) (by decide) (by decide)
  refine ⟨listed, swapped, as_set _ fun argument => ?_, ?_, ?_, by decide⟩
  · simp only [arguments, List.mem_cons, List.not_mem_nil, or_false]
    tauto
  · exact reordered _ _ text " all ,kernelnet" listed swapped (List.Perm.swap _ _ _)
  · exact grows _ (List.subset_cons_self _ _) "all" ((enabled "all").mpr on)

end NeuronKernels.SwitchedNames
