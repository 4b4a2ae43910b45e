import NeuronKernels.Proofs.SettingsPrecedence

/-!
# Overrides in any order

The overrides of a command line are a map, and a map has no order. An override is refused for what
it says, whatever the settings are that it is applied to (`applyOverride_error_iff`), and two
overrides of a map never write the same setting, so every order of a map succeeds or none does, and
all orders that succeed give the same settings (`overrides_in_any_order`).
-/

namespace NeuronKernels.OverrideOrder
open SettingTexts SettingsPrecedence SettingsProblems SettingsSources ToolSettings

/-- Why an override is refused: it names no setting, or its text is none for the setting. -/
inductive Refused : String × String → SettingsError → Prop
  | unknown {name text : String} (none : ∀ key : Key, key.name ≠ name) :
    Refused (name, text) (.unknownKey name)
  | unreadable {name text : String} (key : Key) (named : key.name = name)
    (refused : readValue key.kind text = none) : Refused (name, text) (.invalidValue name text)

theorem ofName_eq_none_iff {name : String} :
    Key.ofName name = none ↔ ∀ key : Key, key.name ≠ name := by
  simp only [Option.eq_none_iff_forall_ne_some, ne_eq, ofName_eq_some_iff]

theorem applyOverride_error_iff {s : Settings} {entry : String × String} {e : SettingsError} :
    applyOverride s entry.1 entry.2 = .error e ↔ Refused entry e := by
  obtain ⟨name, text⟩ := entry
  unfold applyOverride
  cases named : Key.ofName name with
  | none =>
    have unknown := ofName_eq_none_iff.mp named
    constructor
    · rintro ⟨⟩
      exact .unknown unknown
    · rintro (_ | ⟨key, found, _⟩)
      · rfl
      · exact absurd found (unknown key)
  | some key =>
    have found := ofName_eq_some_iff.mp named
    cases read : readValue key.kind text with
    | none =>
      simp only [putText, read, Option.map_none]
      constructor
      · rintro ⟨⟩
        exact .unreadable key found read
      · rintro (unknown | _)
        · exact absurd found (unknown key)
        · rfl
    | some v =>
      simp only [putText, read, Option.map_some, reduceCtorEq, false_iff]
      rintro (unknown | ⟨other, found', refused⟩)
      · exact absurd found (unknown key)
      · obtain rfl := name_injective (found.trans found'.symm)
        cases read.symm.trans refused

theorem not_accepted_of_refused {entry : String × String} {e : SettingsError}
    (h : Refused entry e) : ¬ Accepted entry := by
  intro accepted
  obtain ⟨key, named, readable⟩ := accepted_iff.mp accepted
  cases h with
  | unknown none => exact none key named
  | unreadable other named' refused =>
    obtain rfl := name_injective (named.trans named'.symm)
    simp [refused] at readable

/-- The overrides fail with what is wrong with one of them. -/
theorem exists_refused {overrides : List (String × String)} {s : Settings} {e : SettingsError}
    (h : applyOverrides overrides s = .error e) : ∃ entry ∈ overrides, Refused entry e := by
  induction overrides generalizing s with
  | nil => cases h
  | cons entry rest ih =>
    rw [applyOverrides] at h
    cases first : applyOverride s entry.1 entry.2 with
    | error e' =>
      rw [first] at h
      cases h
      exact ⟨entry, List.mem_cons_self, applyOverride_error_iff.mp first⟩
    | ok t =>
      rw [first] at h
      obtain ⟨later, mem, refused⟩ := ih h
      exact ⟨later, List.mem_cons_of_mem _ mem, refused⟩

theorem exists_applied_iff {overrides : List (String × String)} {s : Settings} :
    (∃ t, applyOverrides overrides s = .ok t) ↔ ∀ entry ∈ overrides, Accepted entry := by
  constructor
  · rintro ⟨t, h⟩
    exact (applyOverrides_eq_ok_iff.mp h).1
  · intro accepted
    cases h : applyOverrides overrides s with
    | ok t => exact ⟨t, rfl⟩
    | error e =>
      obtain ⟨entry, mem, refused⟩ := exists_refused h
      exact absurd (accepted entry mem) (not_accepted_of_refused refused)

/-- The settings behind a map of overrides, setting by setting. -/
theorem get_applied {overrides : List (String × String)} {s t : Settings}
    (h : applyOverrides overrides s = .ok t) (key : Key) :
    get t key = (overrideValue overrides key).getD (get s key) := by
  obtain ⟨accepted, above⟩ := applyOverrides_eq_ok_iff.mp h
  rw [lastOf_namedValue accepted] at above
  exact above key

theorem lookup_override {overrides : List (String × String)}
    (distinct : (overrides.map Prod.fst).Nodup) {name text : String} :
    overrides.reverse.lookup name = some text ↔ (name, text) ∈ overrides := by
  rw [lookup_eq_some_iff_mem, List.mem_reverse]
  rw [List.map_reverse]
  exact List.nodup_reverse.mpr distinct

theorem readValue_applied {overrides : List (String × String)} {s t : Settings}
    (distinct : (overrides.map Prod.fst).Nodup) (h : applyOverrides overrides s = .ok t)
    {key : Key} {text : String} (mem : (key.name, text) ∈ overrides) :
    readValue key.kind text = some (get t key) := by
  obtain ⟨other, v, named, means⟩ := (applyOverrides_eq_ok_iff.mp h).1 _ mem
  obtain rfl := name_injective named
  have read := readValue_eq_some_iff.mpr means
  have given := get_applied h other
  rw [overrideValue, (lookup_override distinct).mpr mem, Option.bind_some, read,
    Option.getD_some] at given
  rw [read, given]

theorem get_applied_of_not_mem {overrides : List (String × String)} {s t : Settings}
    (distinct : (overrides.map Prod.fst).Nodup) (h : applyOverrides overrides s = .ok t)
    {key : Key} (absent : key.name ∉ overrides.map Prod.fst) : get t key = get s key := by
  have nothing : overrides.reverse.lookup key.name = none := by
    refine Option.eq_none_iff_forall_ne_some.mpr fun text found => absent ?_
    exact List.mem_map.mpr ⟨(key.name, text), (lookup_override distinct).mp found, rfl⟩
  rw [get_applied h, overrideValue, nothing, Option.bind_none, Option.getD_none]

/-- Two orders of a map of overrides both give the same settings or both fail, each with what is
wrong with some override. They succeed exactly when every override names one of the ten settings and
can be read as its value; each setting that is named then has that value, and the others stay. -/
theorem overrides_in_any_order {first second : List (String × String)}
    (distinct : (first.map Prod.fst).Nodup) (same : first.Perm second) (s : Settings) :
    ((∃ t, applyOverrides first s = .ok t ∧ applyOverrides second s = .ok t) ∨
      ∃ e e', applyOverrides first s = .error e ∧ applyOverrides second s = .error e' ∧
        (∃ entry ∈ first, Refused entry e) ∧ ∃ entry ∈ first, Refused entry e') ∧
    ((∃ t, applyOverrides first s = .ok t) ↔
      ∀ entry ∈ first, ∃ key ∈ keys, key.name = entry.1 ∧
        (readValue key.kind entry.2).isSome) ∧
    ∀ t, applyOverrides first s = .ok t →
      (∀ entry ∈ first, ∀ key : Key, key.name = entry.1 →
        readValue key.kind entry.2 = some (get t key)) ∧
      ∀ key : Key, key.name ∉ first.map Prod.fst → get t key = get s key := by
  refine ⟨?_, ?_, fun t h => ⟨?_, fun key => get_applied_of_not_mem distinct h⟩⟩
  · cases h : applyOverrides first s with
    | ok t => exact .inl ⟨t, rfl, (applyOverrides_perm same distinct).mp h⟩
    | error e =>
      cases h' : applyOverrides second s with
      | ok t =>
        have agree := (applyOverrides_perm same distinct).mpr h'
        cases h.symm.trans agree
      | error e' =>
        obtain ⟨entry, mem, refused⟩ := exists_refused h'
        exact .inr ⟨e, e', rfl, rfl, exists_refused h, entry, same.mem_iff.mpr mem, refused⟩
  · rw [exists_applied_iff]
    refine forall₂_congr fun entry _ => accepted_iff.trans (exists_congr fun key => ?_)
    exact (and_iff_right (mem_keys key)).symm
  · rintro ⟨_, text⟩ mem key rfl
    exact readValue_applied distinct h mem

/-- A budget and a flag, written in either order. -/
theorem budget_and_flag_in_any_order :
    let first := [("compiler.max_expressions_per_kernel", "+250"), ("backend.force_gpu", "ON")]
    (first.map Prod.fst).Nodup ∧ first.Perm first.reverse ∧
      ∃ t, applyOverrides first defaults = .ok t ∧ applyOverrides first.reverse defaults = .ok t ∧
        get t .maxExpressions = .number 250 ∧ get t .forceGpu = .flag true ∧
        get t .forcePortable = get defaults .forcePortable := by
  intro first
  have distinct : (first.map Prod.fst).Nodup := by decide
  have same : first.Perm first.reverse := (List.reverse_perm first).symm
  have applied : (applyOverrides first defaults).isOk := by decide +kernel
  obtain ⟨⟨t, h, h'⟩ | ⟨e, _, refused, _⟩, -, holds⟩ :=
    overrides_in_any_order distinct same defaults
  · obtain ⟨named, others⟩ := holds t h
    have budget := named ("compiler.max_expressions_per_kernel", "+250") (by decide)
      .maxExpressions (by decide)
    have flag := named ("backend.force_gpu", "ON") (by decide) .forceGpu (by decide)
    have number : readValue .number "+250" = some (.number 250) := by decide
    have yes : readValue .flag "ON" = some (.flag true) := by decide
    exact ⟨distinct, same, t, h, h', Option.some.inj (budget.symm.trans number),
      Option.some.inj (flag.symm.trans yes), others .forcePortable (by decide)⟩
  · rw [refused] at applied
    cases applied

end NeuronKernels.OverrideOrder
