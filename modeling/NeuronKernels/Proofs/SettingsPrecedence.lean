import NeuronKernels.SettingsSources
import NeuronKernels.Proofs.SettingTexts
import Mathlib.Data.List.Nodup
import Mathlib.Logic.Basic

/-!
# Which source a setting comes from

Every source of settings writes a layer over the settings that it is given (`Overlays`), and layers
that are written one after the other are one layer (`overlays_over_iff`). A file, the environment
and the overrides are each a row of layers of one setting, so all three come down to the last layer
of a row that has the setting (`lastOf`). What the layers give is what the sources have written for
the setting (`prevails_iff`), so each setting has by itself the value of its highest source
(`explicit_file_precedence`).
-/

namespace NeuronKernels.SettingsPrecedence
open FileTree SettingTexts SettingsProblems SettingsSources ToolSettings TomlDocument

/-- Values for some of the settings. -/
abbrev Layer := Key → Option ToolSettings.Value

def one (key : Key) (v : Option ToolSettings.Value) : Layer :=
  fun other => if other = key then v else none

/-- A layer with another one below it. -/
def Layer.over (upper lower : Layer) : Layer := fun key => (upper key).or (lower key)

/-- The layer that a row of layers comes to: the last one that has a setting gives it. -/
def lastOf (layers : List Layer) : Layer := fun key => layers.reverse.findSome? fun l => l key

/-- The second settings are the first ones with a layer written over them. -/
def Overlays (layer : Layer) (s t : Settings) : Prop :=
  ∀ key, get t key = (layer key).getD (get s key)

@[simp] theorem lastOf_nil : lastOf [] = fun _ => none := rfl

theorem lastOf_cons (layer : Layer) (rest : List Layer) :
    lastOf (layer :: rest) = (lastOf rest).over layer := by
  funext key
  simp [lastOf, Layer.over, List.findSome?_append]

theorem over_one_none (key : Key) (upper : Layer) : upper.over (one key none) = upper := by
  funext other
  simp [Layer.over, one]

theorem eq_of_get_eq {s t : Settings} (h : ∀ key, get s key = get t key) : s = t := by
  obtain ⟨⟨_⟩, ⟨_, _, _⟩, ⟨_, _, _⟩, ⟨_, _, _⟩⟩ := s
  obtain ⟨⟨_⟩, ⟨_, _, _⟩, ⟨_, _, _⟩, ⟨_, _, _⟩⟩ := t
  simp only [Settings.mk.injEq, AssemblySettings.mk.injEq, DeviceSettings.mk.injEq,
    StandaloneSettings.mk.injEq, LoggingSettings.mk.injEq]
  exact ⟨Value.number.inj (h .maxExpressions),
    ⟨Value.text.inj (h .deviceKind), Value.flag.inj (h .forcePortable),
      Value.flag.inj (h .forceGpu)⟩,
    ⟨Value.text.inj (h .standaloneName), Value.flag.inj (h .constOnly),
      Value.text.inj (h .outputDir)⟩,
    ⟨Value.text.inj (h .logLevel), Value.flag.inj (h .fileLogging), Value.text.inj (h .logDir)⟩⟩

theorem overlays_none_iff {s t : Settings} : Overlays (fun _ => none) s t ↔ s = t := by
  constructor
  · intro h
    exact eq_of_get_eq fun key => (h key).symm
  · rintro rfl key
    rfl

theorem overlays_over_iff {lower upper : Layer} {r s t : Settings} (below : Overlays lower r s) :
    Overlays upper s t ↔ Overlays (upper.over lower) r t := by
  refine forall_congr' fun key => ?_
  rw [below key, Layer.over]
  cases upper key <;> rfl

theorem Overlays.unique {layer : Layer} {s t u : Settings} (first : Overlays layer s t)
    (second : Overlays layer s u) : t = u :=
  eq_of_get_eq fun key => (first key).trans (second key).symm

theorem overlays_put {key : Key} {v : ToolSettings.Value} {s : Settings}
    (h : get (put s key v) key = v) : Overlays (one key (some v)) s (put s key v) := by
  intro other
  by_cases same : other = key
  · subst same
    simp [one, h]
  · simp [one, same, get_put_of_ne same]

/-- In a row of layers of different settings none is hidden by a later one. -/
theorem lastOf_map_one {keys : List Key} (distinct : keys.Nodup) (layer : Layer) (key : Key) :
    lastOf (keys.map fun k => one k (layer k)) key = if key ∈ keys then layer key else none := by
  induction keys with
  | nil => rfl
  | cons k rest ih =>
    obtain ⟨fresh, distinct⟩ := List.nodup_cons.mp distinct
    rw [List.map_cons, lastOf_cons, Layer.over, ih distinct]
    by_cases same : key = k
    · subst same
      simp [one, fresh]
    · simp [one, same]

theorem mem_keys (key : Key) : key ∈ keys := by
  cases key <;> decide

theorem lastOf_keys (layer : Layer) : lastOf (keys.map fun k => one k (layer k)) = layer := by
  funext key
  exact (lastOf_map_one (by decide) layer key).trans (if_pos (mem_keys key))

/-- The values of a layer are of the kinds that their settings take. -/
def Typed (layer : Layer) : Prop :=
  ∀ key v, layer key = some v → ∀ s, get (put s key v) key = v

theorem exists_overlays {layer : Layer} (typed : Typed layer) (s : Settings) :
    ∃ t, Overlays layer s t := by
  -- The settings are put in one after the other, each into what the earlier ones left.
  have row : ∀ (keys : List Key) (s : Settings),
      ∃ t, Overlays (lastOf (keys.map fun k => one k (layer k))) s t := by
    intro keys
    induction keys with
    | nil => exact fun s => ⟨s, overlays_none_iff.mpr rfl⟩
    | cons key rest ih =>
      intro s
      rw [List.map_cons, lastOf_cons]
      cases h : layer key with
      | none =>
        rw [over_one_none]
        exact ih s
      | some v =>
        obtain ⟨t, above⟩ := ih (put s key v)
        exact ⟨t, (overlays_over_iff (overlays_put (typed key v h s))).mp above⟩
  rw [← lastOf_keys layer]
  exact row keys s

/-- The place of a setting in its section. -/
def position (key : Key) : Nat := key.sectionOf.keys.idxOf key

/-- What a section gives for a setting: a table under the name of the setting, an array at its
place. -/
def nodeIn (part : Node) (key : Key) : Option Node :=
  match part with
  | .table _ entries => TomlDocument.find key.field entries
  | .array items => items[position key]?
  | .tables items => (items.map (.table .header))[position key]?
  | _ => none

/-- What a document gives for a setting. -/
def given (root : Entries) (key : Key) : Option Node :=
  (TomlDocument.find key.sectionOf.name root).bind fun part => nodeIn part key

def IsSection : Node → Prop
  | .table .. | .array _ | .tables _ | .dateTime => True
  | _ => False

/-- Whether a document has sections where they belong, and values of the right kinds in them. -/
structure Decodes (root : Entries) : Prop where
  sections : ∀ part node, TomlDocument.find (Section.name part) root = some node → IsSection node
  values : ∀ key node, given root key = some node → ∃ v, Stands key.kind node v

def fileValue (root : Entries) : Layer := fun key =>
  (given root key).bind (SettingsDocument.valueOf key.kind)

/-- Takes settings in a row from what is given for them. -/
def putGiven (source : Key → Option Node) : List Key → Settings → Option Settings
  | [], s => some s
  | key :: rest, s =>
    match source key with
    | none => putGiven source rest s
    | some node => (SettingsDocument.putNode s key node).bind (putGiven source rest)

theorem putGiven_congr {f g : Key → Option Node} {keys : List Key} (h : ∀ key ∈ keys, f key = g key)
    (s : Settings) : putGiven f keys s = putGiven g keys s := by
  induction keys generalizing s with
  | nil => rfl
  | cons key rest ih =>
    have same : putGiven f rest = putGiven g rest :=
      funext fun s => ih (fun k mem => h k (List.mem_cons_of_mem _ mem)) s
    simp only [putGiven, h key List.mem_cons_self, same]

theorem putGiven_append (source : Key → Option Node) (first second : List Key) (s : Settings) :
    putGiven source (first ++ second) s =
      (putGiven source first s).bind (putGiven source second) := by
  induction first generalizing s with
  | nil => rfl
  | cons key rest ih =>
    have append : putGiven source (rest ++ second) =
        fun s => (putGiven source rest s).bind (putGiven source second) := funext ih
    cases h : source key with
    | none => simp only [List.cons_append, putGiven, h, ih]
    | some node => simp only [List.cons_append, putGiven, h, append, Option.bind_assoc]

theorem putGiven_none (keys : List Key) (s : Settings) :
    putGiven (fun _ => none) keys s = some s := by
  induction keys with
  | nil => rfl
  | cons key rest ih => exact ih

theorem putFields_eq (entries : Entries) (keys : List Key) (s : Settings) :
    SettingsDocument.putFields entries keys s =
      putGiven (fun key => TomlDocument.find key.field entries) keys s := by
  induction keys generalizing s with
  | nil => rfl
  | cons key rest ih =>
    have same : SettingsDocument.putFields entries rest =
        putGiven (fun key => TomlDocument.find key.field entries) rest := funext ih
    cases found : TomlDocument.find key.field entries with
    | none => simp only [SettingsDocument.putFields, putGiven, found, same]
    | some node => simp only [SettingsDocument.putFields, putGiven, found, same]

/-- An array gives each setting at its place; what comes after the last one is left aside. -/
theorem putItems_eq {keys : List Key} (distinct : keys.Nodup) (items : List Node) (s : Settings) :
    SettingsDocument.putItems keys items s =
      putGiven (fun key => items[keys.idxOf key]?) keys s := by
  induction keys generalizing items s with
  | nil => cases items <;> rfl
  | cons key rest ih =>
    obtain ⟨fresh, distinct⟩ := List.nodup_cons.mp distinct
    cases items with
    | nil => exact (putGiven_none (key :: rest) s).symm
    | cons node nodes =>
      have shifted : SettingsDocument.putItems rest nodes =
          putGiven (fun k => (node :: nodes)[(key :: rest).idxOf k]?) rest := by
        funext s
        rw [ih distinct]
        apply putGiven_congr
        intro k mem
        have different : key ≠ k := fun same => fresh (same ▸ mem)
        rw [List.idxOf_cons_ne _ different, List.getElem?_cons_succ]
      simp only [SettingsDocument.putItems, putGiven, List.idxOf_cons_self,
        List.getElem?_cons_zero, shifted]

theorem sectionOf_of_mem {part : Section} {key : Key} (mem : key ∈ part.keys) :
    key.sectionOf = part := by
  cases part <;> cases key <;> first | rfl | simp [Section.keys] at mem

theorem nodup_keys (part : Section) : part.keys.Nodup := by
  cases part <;> decide

theorem putSection_eq {part : Section} {node : Node} (h : IsSection node) (s : Settings) :
    SettingsDocument.putSection part.keys s node = putGiven (nodeIn node) part.keys s := by
  have places (items : List Node) :
      putGiven (fun key => items[part.keys.idxOf key]?) part.keys s =
        putGiven (fun key => items[position key]?) part.keys s := by
    apply putGiven_congr
    intro key mem
    rw [position, sectionOf_of_mem mem]
  cases node with
  | table form entries => exact putFields_eq entries part.keys s
  | array items => exact (putItems_eq (nodup_keys part) items s).trans (places items)
  | tables items => exact (putItems_eq (nodup_keys part) _ s).trans (places _)
  | dateTime => exact (putGiven_none part.keys s).symm
  | text | integer | float | boolean => cases h

theorem putSections_eq_some_iff {root : Entries} {parts : List Section} {s t : Settings} :
    SettingsDocument.putSections root parts s = some t ↔
      (∀ part ∈ parts, ∀ node, TomlDocument.find part.name root = some node → IsSection node) ∧
        putGiven (given root) (parts.flatMap Section.keys) s = some t := by
  induction parts generalizing s with
  | nil => simp [SettingsDocument.putSections, putGiven]
  | cons part rest ih =>
    rw [List.flatMap_cons, putGiven_append, List.forall_mem_cons]
    cases found : TomlDocument.find part.name root with
    | none =>
      have nothing : putGiven (given root) part.keys s = some s := by
        rw [← putGiven_none part.keys s]
        apply putGiven_congr
        intro key mem
        rw [given, sectionOf_of_mem mem, found, Option.bind_none]
      simp [SettingsDocument.putSections, found, nothing, ih]
    | some node =>
      have inside (mem : IsSection node) : putGiven (given root) part.keys s =
          SettingsDocument.putSection part.keys s node := by
        rw [putSection_eq mem]
        apply putGiven_congr
        intro key mem
        rw [given, sectionOf_of_mem mem, found, Option.bind_some]
      by_cases form : IsSection node
      · rw [inside form]
        simp only [SettingsDocument.putSections, found, Option.bind_eq_some_iff, ih,
          Option.some.injEq, forall_eq', form, true_and]
        constructor
        · rintro ⟨r, first, forms, second⟩
          exact ⟨forms, r, first, second⟩
        · rintro ⟨forms, r, first, second⟩
          exact ⟨r, first, forms, second⟩
      · have refused : SettingsDocument.putSection part.keys s node = none := by
          cases node <;> first | rfl | exact absurd trivial form
        simp [SettingsDocument.putSections, found, form, refused]

theorem get_put_of_valueOf {key : Key} {node : Node} {v : ToolSettings.Value}
    (h : SettingsDocument.valueOf key.kind node = some v) (s : Settings) :
    get (put s key v) key = v := by
  cases v <;> cases key <;>
    first
    | rfl
    | (cases node <;> simp [Key.kind, SettingsDocument.valueOf] at h)

theorem putGiven_eq_some_iff {source : Key → Option Node} {keys : List Key} {s t : Settings} :
    putGiven source keys s = some t ↔
      (∀ key ∈ keys, ∀ node, source key = some node →
        (SettingsDocument.valueOf key.kind node).isSome) ∧
      Overlays (lastOf (keys.map fun key =>
        one key ((source key).bind (SettingsDocument.valueOf key.kind)))) s t := by
  induction keys generalizing s with
  | nil => simp [putGiven, overlays_none_iff]
  | cons key rest ih =>
    rw [List.map_cons, lastOf_cons, List.forall_mem_cons]
    cases found : source key with
    | none => simp [putGiven, found, ih, over_one_none]
    | some node =>
      cases read : SettingsDocument.valueOf key.kind node with
      | none => simp [putGiven, found, read, SettingsDocument.putNode]
      | some v =>
        have below := overlays_put (get_put_of_valueOf read s)
        simp [putGiven, found, read, SettingsDocument.putNode, ih, overlays_over_iff below]

theorem typed_fileValue (root : Entries) : Typed (fileValue root) := by
  intro key v h
  obtain ⟨node, _, read⟩ := Option.bind_eq_some_iff.mp h
  exact get_put_of_valueOf read

/-- A document gives settings exactly when it decodes, and then its values over the defaults. -/
theorem settings_ofText_iff {text : String} {s : Settings} :
    SettingsDocument.ofText text = some s ↔
      ∃ root, TomlDocument.ofText text = some root ∧ Decodes root ∧
        Overlays (fileValue root) defaults s := by
  have layer (root : Entries) : lastOf (keys.map fun key =>
      one key ((given root key).bind (SettingsDocument.valueOf key.kind))) = fileValue root :=
    lastOf_keys (fileValue root)
  unfold SettingsDocument.ofText
  cases TomlDocument.ofText text with
  | none => simp
  | some root =>
    have every (part : Section) : part ∈ sections := by cases part <;> decide
    have decodes : Decodes root ↔
        (∀ part ∈ sections, ∀ node,
          TomlDocument.find part.name root = some node → IsSection node) ∧
        (∀ key ∈ keys, ∀ node, given root key = some node →
          (SettingsDocument.valueOf key.kind node).isSome) := by
      simp only [Option.isSome_iff_exists, valueOf_eq_some_iff]
      exact ⟨fun h => ⟨fun part _ => h.sections part, fun key _ => h.values key⟩,
        fun h => ⟨fun part => h.1 part (every part), fun key => h.2 key (mem_keys key)⟩⟩
    simp only [Option.some.injEq, exists_eq_left', decodes]
    rw [putSections_eq_some_iff, ← keys, putGiven_eq_some_iff, layer, and_assoc]

def variableOf : Key → Option String
  | .maxExpressions => some "KERNELNET_MAX_EXPRESSIONS"
  | .deviceKind => some "KERNELNET_BACKEND"
  | .forcePortable => some "KERNELNET_FORCE_PORTABLE"
  | .outputDir => some "KERNELNET_STANDALONE_DIR"
  | .logLevel => some "KERNELNET_LOG_LEVEL"
  | .forceGpu | .standaloneName | .constOnly | .fileLogging | .logDir => none

/-- The text of the variable of a setting, if it has one and it is set. -/
def variableText (environment : Environment) (key : Key) : Option String :=
  (variableOf key).bind fun name => lookupVariable name environment

/-- The layer of the environment: the variables that are set and can be read. -/
def variableValue (environment : Environment) : Layer := fun key =>
  (variableText environment key).bind (readValue key.kind)

def entryValue (environment : Environment) (entry : String × Key) : Layer :=
  one entry.2 ((lookupVariable entry.1 environment).bind (readValue entry.2.kind))

theorem overlays_applyVariable (environment : Environment) (s : Settings) (entry : String × Key) :
    Overlays (entryValue environment entry) s (applyVariable environment s entry) := by
  unfold applyVariable entryValue
  cases lookupVariable entry.1 environment with
  | none => simp [Overlays, one]
  | some text =>
    cases read : readValue entry.2.kind text with
    | none => simp [Overlays, one, putText, read]
    | some v =>
      simpa [putText, read] using overlays_put (get_put_of_readValue read s)

theorem overlays_applyVariables (environment : Environment) (entries : List (String × Key))
    (s : Settings) :
    Overlays (lastOf (entries.map (entryValue environment))) s
      (entries.foldl (applyVariable environment) s) := by
  induction entries generalizing s with
  | nil => exact overlays_none_iff.mpr rfl
  | cons entry rest ih =>
    rw [List.map_cons, lastOf_cons]
    exact (overlays_over_iff (overlays_applyVariable environment s entry)).mp (ih _)

theorem overlays_applyEnvironment (environment : Environment) (s : Settings) :
    Overlays (variableValue environment) s (applyEnvironment environment s) := by
  have layer : lastOf (settingVariables.map (entryValue environment)) =
      variableValue environment := by
    funext key
    cases key <;>
      simp [settingVariables, lastOf_cons, Layer.over, entryValue, one, variableValue, variableText,
        variableOf, Key.kind]
  rw [← layer]
  exact overlays_applyVariables environment settingVariables s

/-- An override names a setting, and its text stands for a value of it. -/
def Accepted (entry : String × String) : Prop :=
  ∃ (key : Key) (v : ToolSettings.Value), key.name = entry.1 ∧ Denotes key.kind entry.2 v

theorem accepted_iff {entry : String × String} :
    Accepted entry ↔ ∃ key : Key, key.name = entry.1 ∧ (readValue key.kind entry.2).isSome := by
  simp only [Accepted, Option.isSome_iff_exists, readValue_eq_some_iff, exists_and_left]

def namedValue (entry : String × String) : Layer := fun key =>
  if entry.1 = key.name then readValue key.kind entry.2 else none

/-- The layer of the overrides: the last one with the name of a setting. In a map there is one. -/
def overrideValue (overrides : List (String × String)) : Layer := fun key =>
  (overrides.reverse.lookup key.name).bind (readValue key.kind)

theorem typed_overrideValue (overrides : List (String × String)) :
    Typed (overrideValue overrides) := by
  intro key v h
  obtain ⟨text, _, read⟩ := Option.bind_eq_some_iff.mp h
  exact get_put_of_readValue read

theorem ofName_eq_some_iff {name : String} {key : Key} :
    Key.ofName name = some key ↔ key.name = name := by
  constructor
  · intro h
    simpa [Key.ofName] using List.find?_some h
  · rintro rfl
    exact ofName_name key

theorem name_injective {key other : Key} (h : key.name = other.name) : key = other := by
  have found := ofName_name other
  rw [← h, ofName_name key] at found
  exact Option.some.inj found

theorem exists_applyOverride {entry : String × String} (accepted : Accepted entry) (s : Settings) :
    ∃ t, applyOverride s entry.1 entry.2 = .ok t ∧ Overlays (namedValue entry) s t := by
  obtain ⟨key, v, name, means⟩ := accepted
  have read := readValue_eq_some_iff.mpr means
  have layer : namedValue entry = one key (some v) := by
    funext other
    by_cases same : other = key
    · subst same
      simp [namedValue, one, name, read]
    · have different : entry.1 ≠ other.name :=
        fun h => same (name_injective (h.symm.trans name.symm))
      simp [namedValue, one, same, different]
  refine ⟨put s key v, ?_, ?_⟩
  · simp [applyOverride, ofName_eq_some_iff.mpr name, putText, read]
  · rw [layer]
    exact overlays_put (get_put_of_readValue read s)

theorem accepted_of_applyOverride {entry : String × String} {s t : Settings}
    (h : applyOverride s entry.1 entry.2 = .ok t) : Accepted entry := by
  unfold applyOverride at h
  cases named : Key.ofName entry.1 with
  | none => simp [named] at h
  | some key =>
    refine accepted_iff.mpr ⟨key, ofName_eq_some_iff.mp named, ?_⟩
    cases read : readValue key.kind entry.2 with
    | none => simp [named, putText, read] at h
    | some v => rfl

theorem applyOverrides_eq_ok_iff {overrides : List (String × String)} {s t : Settings} :
    applyOverrides overrides s = .ok t ↔
      (∀ entry ∈ overrides, Accepted entry) ∧ Overlays (lastOf (overrides.map namedValue)) s t := by
  induction overrides generalizing s with
  | nil => simp [applyOverrides, overlays_none_iff]
  | cons entry rest ih =>
    rw [List.map_cons, lastOf_cons, List.forall_mem_cons]
    by_cases accepted : Accepted entry
    · obtain ⟨r, h, below⟩ := exists_applyOverride accepted s
      simp [applyOverrides, h, ih, accepted, overlays_over_iff below]
    · cases h : applyOverride s entry.1 entry.2 with
      | error e => simp [applyOverrides, h, accepted]
      | ok r => exact absurd (accepted_of_applyOverride h) accepted

/-- When all overrides can be read, the first one that can be read is the first one. -/
theorem findSome?_namedValue {overrides : List (String × String)}
    (accepted : ∀ entry ∈ overrides, Accepted entry) (key : Key) :
    (overrides.map namedValue).findSome? (fun l => l key) =
      (overrides.lookup key.name).bind (readValue key.kind) := by
  induction overrides with
  | nil => rfl
  | cons entry rest ih =>
    obtain ⟨entryName, text⟩ := entry
    obtain ⟨⟨other, v, name, means⟩, accepted⟩ := List.forall_mem_cons.mp accepted
    by_cases same : entryName = key.name
    · obtain rfl : other = key := name_injective (name.trans same)
      have read := readValue_eq_some_iff.mpr means
      simp [namedValue, same, read]
    · have different : (key.name == entryName) = false := beq_false_of_ne (Ne.symm same)
      simpa [namedValue, List.lookup_cons, same, different] using ih accepted

theorem lastOf_namedValue {overrides : List (String × String)}
    (accepted : ∀ entry ∈ overrides, Accepted entry) :
    lastOf (overrides.map namedValue) = overrideValue overrides := by
  funext key
  rw [lastOf, ← List.map_reverse, overrideValue]
  exact findSome?_namedValue (fun entry mem => accepted entry (List.mem_reverse.mp mem)) key

theorem lookup_eq_some_iff_mem {entries : List (String × String)} {name text : String}
    (distinct : (entries.map Prod.fst).Nodup) :
    entries.lookup name = some text ↔ (name, text) ∈ entries := by
  induction entries with
  | nil => simp
  | cons entry rest ih =>
    obtain ⟨other, value⟩ := entry
    obtain ⟨fresh, distinct⟩ := List.nodup_cons.mp distinct
    by_cases same : name = other
    · subst same
      have absent : (name, text) ∉ rest :=
        fun mem => fresh (List.mem_map.mpr ⟨(name, text), mem, rfl⟩)
      simp [absent, eq_comm]
    · have different : (name == other) = false := beq_false_of_ne same
      simp [List.lookup_cons, different, same, ih distinct]

theorem overrideValue_perm {first second : List (String × String)} (same : first.Perm second)
    (distinct : (first.map Prod.fst).Nodup) : overrideValue first = overrideValue second := by
  have distinct' : (second.map Prod.fst).Nodup := (same.map Prod.fst).nodup_iff.mp distinct
  have reversed {entries : List (String × String)} (h : (entries.map Prod.fst).Nodup) :
      (entries.reverse.map Prod.fst).Nodup := by
    rw [List.map_reverse]
    exact List.nodup_reverse.mpr h
  funext key
  have found : first.reverse.lookup key.name = second.reverse.lookup key.name := by
    ext text
    rw [lookup_eq_some_iff_mem (reversed distinct), lookup_eq_some_iff_mem (reversed distinct'),
      List.mem_reverse, List.mem_reverse, same.mem_iff]
  rw [overrideValue, found, overrideValue]

/-- The order of overrides of different settings does not matter. -/
theorem applyOverrides_perm {first second : List (String × String)} (same : first.Perm second)
    (distinct : (first.map Prod.fst).Nodup) {s t : Settings} :
    applyOverrides first s = .ok t ↔ applyOverrides second s = .ok t := by
  rw [applyOverrides_eq_ok_iff, applyOverrides_eq_ok_iff]
  have accepted : (∀ entry ∈ first, Accepted entry) ↔ ∀ entry ∈ second, Accepted entry :=
    forall_congr' fun entry => by rw [same.mem_iff]
  rw [accepted]
  refine and_congr_right fun all => ?_
  rw [lastOf_namedValue all, lastOf_namedValue (accepted.mpr all), overrideValue_perm same distinct]

/-- The variable of a setting is set, and its text stands for the value. -/
def Sets (environment : Environment) (key : Key) (v : ToolSettings.Value) : Prop :=
  ∃ text, variableText environment key = some text ∧ Denotes key.kind text v

/-- Which value a setting has in the end. An override prevails over everything else; without one it
is the variable, if that can be read, then the document, and the default only if no source has
anything for the setting. -/
inductive Prevails (root : Entries) (environment : Environment)
    (overrides : List (String × String)) (key : Key) : ToolSettings.Value → Prop
  | byOverride {text : String} {v : ToolSettings.Value}
    (last : overrides.reverse.lookup key.name = some text) (means : Denotes key.kind text v) :
    Prevails root environment overrides key v
  | byVariable {v : ToolSettings.Value} (free : key.name ∉ overrides.map Prod.fst)
    (set : Sets environment key v) : Prevails root environment overrides key v
  | byDocument {node : Node} {v : ToolSettings.Value} (free : key.name ∉ overrides.map Prod.fst)
    (unset : ∀ v, ¬Sets environment key v) (found : given root key = some node)
    (means : Stands key.kind node v) : Prevails root environment overrides key v
  | byDefault (free : key.name ∉ overrides.map Prod.fst) (unset : ∀ v, ¬Sets environment key v)
    (silent : given root key = none) : Prevails root environment overrides key (get defaults key)

/-- The value of a setting: the override, else the variable, else the document, else the default. -/
def chosen (root : Entries) (environment : Environment) (overrides : List (String × String))
    (key : Key) : ToolSettings.Value :=
  ((overrideValue overrides key).or
    ((variableValue environment key).or (fileValue root key))).getD (get defaults key)

theorem overrideValue_eq_some_iff {overrides : List (String × String)} {key : Key}
    {v : ToolSettings.Value} : overrideValue overrides key = some v ↔
      ∃ text, overrides.reverse.lookup key.name = some text ∧ Denotes key.kind text v := by
  simp only [overrideValue, Option.bind_eq_some_iff, readValue_eq_some_iff]

theorem mem_of_lookup {entries : List (String × String)} {name text : String}
    (found : entries.lookup name = some text) : (name, text) ∈ entries := by
  obtain ⟨front, back, rfl, -⟩ := List.lookup_eq_some_iff.mp found
  exact List.mem_append_right _ List.mem_cons_self

theorem overrideValue_eq_none_iff {overrides : List (String × String)}
    (accepted : ∀ entry ∈ overrides, Accepted entry) {key : Key} :
    overrideValue overrides key = none ↔ key.name ∉ overrides.map Prod.fst := by
  rw [overrideValue, Option.bind_eq_none_iff]
  constructor
  · intro nothing mem
    obtain ⟨entry, given, named⟩ := List.mem_map.mp mem
    have listed : (overrides.reverse.lookup key.name).isSome :=
      List.lookup_isSome_iff.mpr ⟨entry, List.mem_reverse.mpr given, beq_iff_eq.mpr named.symm⟩
    obtain ⟨text, found⟩ := Option.isSome_iff_exists.mp listed
    obtain ⟨other, v, name, means⟩ := accepted _ (List.mem_reverse.mp (mem_of_lookup found))
    obtain rfl := name_injective name
    cases (nothing text found).symm.trans (readValue_eq_some_iff.mpr means)
  · intro free text found
    exact absurd (List.mem_map_of_mem (List.mem_reverse.mp (mem_of_lookup found))) free

theorem variableValue_eq_some_iff {environment : Environment} {key : Key}
    {v : ToolSettings.Value} : variableValue environment key = some v ↔ Sets environment key v := by
  simp only [variableValue, Sets, Option.bind_eq_some_iff, readValue_eq_some_iff]

theorem not_sets {environment : Environment} {key : Key}
    (unset : variableText environment key = none) (v : ToolSettings.Value) :
    ¬Sets environment key v := by
  rintro ⟨text, set, -⟩
  cases unset.symm.trans set

theorem variableValue_eq_none_iff {environment : Environment} {key : Key} :
    variableValue environment key = none ↔ ∀ v, ¬Sets environment key v := by
  simp only [Option.eq_none_iff_forall_ne_some, ne_eq, variableValue_eq_some_iff]

theorem fileValue_eq_some_iff {root : Entries} {key : Key} {v : ToolSettings.Value} :
    fileValue root key = some v ↔ ∃ node, given root key = some node ∧ Stands key.kind node v := by
  simp only [fileValue, Option.bind_eq_some_iff, valueOf_eq_some_iff]

theorem fileValue_eq_none_iff {root : Entries} (decodes : Decodes root) {key : Key} :
    fileValue root key = none ↔ given root key = none := by
  rw [fileValue, Option.bind_eq_none_iff]
  constructor
  · intro nothing
    cases found : given root key with
    | none => rfl
    | some node =>
      obtain ⟨v, means⟩ := decodes.values key node found
      cases (nothing node found).symm.trans (valueOf_eq_some_iff.mpr means)
  · intro silent node found
    cases silent.symm.trans found

theorem prevails_iff {root : Entries} {environment : Environment}
    {overrides : List (String × String)} (decodes : Decodes root)
    (accepted : ∀ entry ∈ overrides, Accepted entry) {key : Key} {v : ToolSettings.Value} :
    Prevails root environment overrides key v ↔ v = chosen root environment overrides key := by
  constructor
  · intro h
    cases h with
    | byOverride last means =>
      have given := overrideValue_eq_some_iff.mpr ⟨_, last, means⟩
      rw [chosen, given, Option.some_or, Option.getD_some]
    | byVariable free set =>
      have above := (overrideValue_eq_none_iff accepted).mpr free
      have given := variableValue_eq_some_iff.mpr set
      rw [chosen, above, Option.none_or, given, Option.some_or, Option.getD_some]
    | byDocument free unset found means =>
      have above := (overrideValue_eq_none_iff accepted).mpr free
      have below := variableValue_eq_none_iff.mpr unset
      have given := fileValue_eq_some_iff.mpr ⟨_, found, means⟩
      rw [chosen, above, Option.none_or, below, Option.none_or, given, Option.getD_some]
    | byDefault free unset silent =>
      have above := (overrideValue_eq_none_iff accepted).mpr free
      have below := variableValue_eq_none_iff.mpr unset
      have nothing := (fileValue_eq_none_iff decodes).mpr silent
      rw [chosen, above, Option.none_or, below, Option.none_or, nothing, Option.getD_none]
  · rintro rfl
    unfold chosen
    cases upper : overrideValue overrides key with
    | some v =>
      obtain ⟨text, last, means⟩ := overrideValue_eq_some_iff.mp upper
      exact .byOverride last means
    | none =>
      have free := (overrideValue_eq_none_iff accepted).mp upper
      cases middle : variableValue environment key with
      | some v => exact .byVariable free (variableValue_eq_some_iff.mp middle)
      | none =>
        have unset := variableValue_eq_none_iff.mp middle
        cases lower : fileValue root key with
        | some v =>
          obtain ⟨node, found, means⟩ := fileValue_eq_some_iff.mp lower
          exact .byDocument free unset found means
        | none => exact .byDefault free unset ((fileValue_eq_none_iff decodes).mp lower)

theorem overlays_chosen_iff {root : Entries} {environment : Environment}
    {overrides : List (String × String)} {s t : Settings}
    (file : Overlays (fileValue root) defaults s) :
    Overlays (overrideValue overrides) (applyEnvironment environment s) t ↔
      ∀ key, get t key = chosen root environment overrides key := by
  rw [overlays_over_iff (overlays_applyEnvironment environment s), overlays_over_iff file]
  refine forall_congr' fun key => ?_
  rw [chosen, Layer.over, Layer.over, Option.or_assoc]

theorem readFile_eq_ok_iff {tree : Tree} {path : String} {s : Settings} :
    readFile tree path = .ok s ↔
      ∃ text root, readText tree path = .ok text ∧ TomlDocument.ofText text = some root ∧
        Decodes root ∧ Overlays (fileValue root) defaults s := by
  unfold readFile
  cases readText tree path with
  | error cause => simp
  | ok text =>
    simp only [Except.ok.injEq, exists_and_left, exists_eq_left', ← settings_ofText_iff]
    cases SettingsDocument.ofText text <;> simp

theorem loadFile_eq_ok_iff {tree : Tree} {environment : Environment} {path : String}
    {overrides : List (String × String)} {s : Settings} :
    loadFile tree environment path overrides = .ok s ↔
      ∃ text root, readText tree path = .ok text ∧ TomlDocument.ofText text = some root ∧
        Decodes root ∧ (∀ entry ∈ overrides, Accepted entry) ∧
        ∀ key, Prevails root environment overrides key (get s key) := by
  have applied {root : Entries} {f : Settings} (decodes : Decodes root)
      (file : Overlays (fileValue root) defaults f) :
      applyOverrides overrides (applyEnvironment environment f) = .ok s ↔
        (∀ entry ∈ overrides, Accepted entry) ∧
          ∀ key, Prevails root environment overrides key (get s key) := by
    rw [applyOverrides_eq_ok_iff]
    refine and_congr_right fun accepted => ?_
    rw [lastOf_namedValue accepted, overlays_chosen_iff file]
    exact forall_congr' fun key => (prevails_iff decodes accepted).symm
  constructor
  · intro h
    cases document : readFile tree path with
    | error e => simp [loadFile, document] at h
    | ok f =>
      obtain ⟨text, root, read, parsed, decodes, file⟩ := readFile_eq_ok_iff.mp document
      simp only [loadFile, document] at h
      exact ⟨text, root, read, parsed, decodes, (applied decodes file).mp h⟩
  · rintro ⟨text, root, read, parsed, decodes, rest⟩
    obtain ⟨f, file⟩ := exists_overlays (typed_fileValue root) defaults
    have document : readFile tree path = .ok f :=
      readFile_eq_ok_iff.mpr ⟨text, root, read, parsed, decodes, file⟩
    simp only [loadFile, document]
    exact (applied decodes file).mpr rest

theorem loadFile_error_iff {tree : Tree} {environment : Environment} {path : String}
    {overrides : List (String × String)} :
    (∃ e, loadFile tree environment path overrides = .error e) ↔
      (∃ cause, readText tree path = .error cause) ∨
      (∃ text, readText tree path = .ok text ∧
        ¬∃ root, TomlDocument.ofText text = some root ∧ Decodes root) ∨
      ∃ entry ∈ overrides, ¬Accepted entry := by
  have ok_iff : (∃ s, loadFile tree environment path overrides = .ok s) ↔
      ∃ text, readText tree path = .ok text ∧
        (∃ root, TomlDocument.ofText text = some root ∧ Decodes root) ∧
        ∀ entry ∈ overrides, Accepted entry := by
    constructor
    · rintro ⟨s, h⟩
      obtain ⟨text, root, read, parsed, decodes, accepted, _⟩ := loadFile_eq_ok_iff.mp h
      exact ⟨text, read, ⟨root, parsed, decodes⟩, accepted⟩
    · rintro ⟨text, read, ⟨root, parsed, decodes⟩, accepted⟩
      obtain ⟨f, file⟩ := exists_overlays (typed_fileValue root) defaults
      obtain ⟨s, above⟩ := exists_overlays (typed_overrideValue overrides)
        (applyEnvironment environment f)
      have chosen := (overlays_chosen_iff file).mp above
      exact ⟨s, loadFile_eq_ok_iff.mpr ⟨text, root, read, parsed, decodes, accepted,
        fun key => (prevails_iff decodes accepted).mpr (chosen key)⟩⟩
  have error_iff : (∃ e, loadFile tree environment path overrides = .error e) ↔
      ¬∃ s, loadFile tree environment path overrides = .ok s := by
    cases loadFile tree environment path overrides <;> simp
  rw [error_iff, ok_iff]
  cases read : readText tree path with
  | error cause => simp
  | ok text =>
    simp only [Except.ok.injEq, exists_eq_left', reduceCtorEq, exists_false, false_or]
    rw [Classical.not_and_iff_not_or_not]
    simp only [not_forall, exists_prop]

/-- With a file that is named, each setting has the value of its own highest source, for both ways
to obtain settings. The result is an error exactly when the file cannot be read or does not decode,
or when some override names no setting or stands for no value of it; what the variables are counts
only by the values that they stand for. -/
theorem explicit_file_precedence (tree : Tree) (environment : Environment) (path : String)
    (overrides : List (String × String)) :
    resolve tree environment (some path) overrides =
        load tree environment (some path) overrides ∧
      (∀ s, load tree environment (some path) overrides = .ok s ↔
        ∃ text root, readText tree path = .ok text ∧ TomlDocument.ofText text = some root ∧
          Decodes root ∧ (∀ entry ∈ overrides, Accepted entry) ∧
          ∀ key, Prevails root environment overrides key (get s key)) ∧
      ((∃ e, load tree environment (some path) overrides = .error e) ↔
        (∃ cause, readText tree path = .error cause) ∨
        (∃ text, readText tree path = .ok text ∧
          ¬∃ root, TomlDocument.ofText text = some root ∧ Decodes root) ∨
        ∃ entry ∈ overrides, ¬Accepted entry) ∧
      ∀ other, (∀ key v, Sets other key v ↔ Sets environment key v) →
        load tree other (some path) overrides = load tree environment (some path) overrides := by
  refine ⟨rfl, fun s => loadFile_eq_ok_iff, loadFile_error_iff, fun other same => ?_⟩
  have layer : variableValue other = variableValue environment := by
    funext key
    apply Option.ext
    intro v
    rw [variableValue_eq_some_iff, variableValue_eq_some_iff, same]
  have agree : applyEnvironment other = applyEnvironment environment := by
    funext s
    exact (overlays_applyEnvironment other s).unique
      (layer ▸ overlays_applyEnvironment environment s)
  simp only [load, loadFile, agree]

def smallFile : String :=
  "[compiler]\nmax_expressions_per_kernel = 50\n" ++ "[backend]\nforce_portable = true\n" ++
    "[logging]\nlevel = \"debug\"\n"

def smallRoot : Entries :=
  [("compiler", .table .header [("max_expressions_per_kernel", .integer 50)]),
   ("backend", .table .header [("force_portable", .boolean true)]),
   ("logging", .table .header [("level", .text "debug")])]

theorem decodes_smallRoot : Decodes smallRoot where
  sections part node found := by
    cases part <;> cases found <;> trivial
  values key node found := by
    cases key <;> cases found
    case maxExpressions => exact ⟨_, .number⟩
    case forcePortable => exact ⟨_, .flag⟩
    case logLevel => exact ⟨_, .text⟩

/-- The budget is overridden, the level of the log is that of its variable, and the flag whose
variable is no word for a flag is that of the file. A second flag that is no word for one is refused
when it is an override. -/
theorem highest_sources_loaded :
    let tree : Tree := ⟨[(["a.toml"], .text smallFile)], ⟨[], 0⟩⟩
    let readable := [("KERNELNET_MAX_EXPRESSIONS", "60"), ("KERNELNET_LOG_LEVEL", "warn")]
    let environment := ("KERNELNET_FORCE_PORTABLE", "perhaps") :: readable
    let overrides :=
      [("compiler.max_expressions_per_kernel", "+070"), ("standalone.const_only", "YES")]
    load tree environment (some "/a.toml") overrides =
        .ok ⟨⟨70⟩, ⟨"auto", true, false⟩, ⟨"network", true, "."⟩, ⟨"warn", false, "logs"⟩⟩ ∧
      load tree environment (some "/a.toml") overrides =
        load tree readable (some "/a.toml") overrides ∧
      ∃ e, load tree environment (some "/a.toml") (("backend.force_gpu", "maybe") :: overrides) =
        .error e := by
  intro tree readable environment overrides
  have parsed : TomlDocument.ofText smallFile = some smallRoot := rfl
  have seventy : Denotes .number "+070" (.number 70) :=
    (Denotes.number (.inr rfl) (by decide) :
      Denotes .number ("+" ++ String.ofList (List.replicate 1 '0') ++ toString 70) _)
  have yes : Denotes .flag "YES" (.flag true) := .yes (show "yes" ∈ _ by decide) (by decide)
  have perhaps (v : ToolSettings.Value) : ¬Sets environment .forcePortable v := by
    rintro ⟨text, set, means⟩
    obtain rfl := Option.some.inj set
    exact not_denotes_flag (by decide) v means
  have accepted : ∀ entry ∈ overrides, Accepted entry := by
    simp only [overrides, List.forall_mem_cons]
    exact ⟨⟨.maxExpressions, _, rfl, seventy⟩, ⟨.constOnly, _, rfl, yes⟩, List.forall_mem_nil _⟩
  refine ⟨?_, ?_, ?_⟩
  · refine ((explicit_file_precedence tree environment "/a.toml" overrides).2.1 _).mpr
      ⟨smallFile, smallRoot, rfl, parsed, decodes_smallRoot, accepted, fun key => ?_⟩
    cases key
    case maxExpressions => exact .byOverride rfl seventy
    case constOnly => exact .byOverride rfl yes
    case logLevel => exact .byVariable (by decide) ⟨_, rfl, .text⟩
    case forcePortable => exact .byDocument (by decide) perhaps rfl .flag
    all_goals exact .byDefault (by decide) (not_sets rfl) rfl
  · refine (explicit_file_precedence tree readable "/a.toml" overrides).2.2.2 _ fun key v => ?_
    by_cases flag : key = .forcePortable
    · subst flag
      exact iff_of_false (perhaps v) (not_sets rfl v)
    · have same : variableText environment key = variableText readable key := by
        cases key <;> first | rfl | exact absurd rfl flag
      rw [Sets, Sets, same]
  · refine (explicit_file_precedence tree environment "/a.toml" _).2.2.1.mpr (.inr (.inr ?_))
    refine ⟨_, List.mem_cons_self, ?_⟩
    rintro ⟨key, v, named, means⟩
    obtain rfl : key = .forceGpu := name_injective named
    exact not_denotes_flag (by decide) v means

end NeuronKernels.SettingsPrecedence
