import NeuronKernels.LoggingSession
import NeuronKernels.Proofs.WrittenArrays
import NeuronKernels.SettingsProblems

/-!
# What debug flags raise

The filter of debug flags has a rule for every name that is switched on, and the base level behind
them (`lenientRules_filterText`). All rules of names let the same details through, so of those that
are about a target any one decides (`detailFor_raised`). A rule is about every target that begins
with its own, and the name of the first part begins the names of all others (`covers_raised_iff`):
switching on a part raises that part alone, unless it is the first one, which raises all
(`parts_raised`).
-/

namespace NeuronKernels.RaisedParts
open AlphanumericCharacters BlankCharacters DebugFlags LogEvent LogFilter LoggingSession TextPieces
open WrittenArrays

/-- A text that a filter reads as a level, and the detail that it stands for. -/
structure BaseLevel (level : String) (detail : Nat) : Prop where
  reads : detailOf level = some detail
  no_sign : level.toList.head? ≠ some '+'

/-- The module of a part, or a module inside of it. -/
def InPart (part target : String) : Prop :=
  target = targetName part ∨ ∃ rest, target = targetName part ++ "::" ++ rest

/-- The part whose name begins the names of all others. -/
def firstPart : String := "kernelnet"

/-- The rule of a name. -/
def raised (name : String) : Rule := ⟨some (targetName name), .empty, Level.debug.detail⟩

/-- The rule of a base level. -/
def baseRule (detail : Nat) : Rule := ⟨none, .empty, detail⟩

theorem isAsciiLetter_of_smallLetter {c : Char} (h : isAsciiLetter (smallLetter c) = true) :
    isAsciiLetter c = true := by
  unfold smallLetter at h
  split at h
  · rename_i capital
    simp [isAsciiLetter, capital]
  · exact h

theorem letters_of_detailWords {text : String} (h : smallLetters text ∈ detailWords) :
    ∀ c ∈ text.toList, isAsciiLetter c = true := by
  have words : (detailWords.all fun word => word.toList.all isAsciiLetter) = true := by
    decide +kernel
  simp only [List.all_eq_true] at words
  intro c hc
  refine isAsciiLetter_of_smallLetter (words _ h _ ?_)
  rw [smallLetters, String.toList_ofList]
  exact List.mem_map_of_mem hc

theorem digits_of_readUnsigned {text : String} {n : Nat} (h : readUnsigned text = some n)
    (no_sign : text.toList.head? ≠ some '+') :
    text.toList ≠ [] ∧ ∀ c ∈ text.toList, isDigit c = true := by
  unfold readUnsigned at h
  split at h
  · rename_i rest sign
    simp [sign] at no_sign
  · by_cases bad : text.toList.isEmpty || !text.toList.all isDigit
    · simp [bad] at h
    · simpa using bad

theorem BaseLevel.word {level : String} {detail : Nat} (h : BaseLevel level detail) :
    level.toList ≠ [] ∧ ∀ c ∈ level.toList, isDigit c = true ∨ isAsciiLetter c = true := by
  have reads := h.reads
  unfold detailOf at reads
  split at reads
  · rename_i n number
    obtain ⟨ne_nil, digits⟩ := digits_of_readUnsigned number h.no_sign
    exact ⟨ne_nil, fun c hc => .inl (digits c hc)⟩
  · obtain ⟨found, place, -⟩ := List.findIdx?_eq_some_iff_getElem.mp reads
    have listed : smallLetters level ∈ detailWords := by
      rw [← beq_iff_eq.mp place]
      exact List.getElem_mem found
    refine ⟨?_, fun c hc => .inr (letters_of_detailWords listed c hc)⟩
    intro empty
    rw [smallLetters, empty] at listed
    revert listed
    decide

theorem findMark_none {one other : Char} {cs : List Char} (h : one ∉ cs) (h' : other ∉ cs) :
    findMark one other 0 cs = none := by
  have start : dropBytes 0 cs = cs := by cases cs <;> rfl
  have nowhere : cs.all (fun c => c != one && c != other) = true := by
    rw [List.all_eq_true]
    intro c hc
    rw [Bool.and_eq_true, bne_iff_ne, bne_iff_ne]
    exact ⟨fun same => h (same ▸ hc), fun same => h' (same ▸ hc)⟩
  unfold findMark
  dsimp only
  rw [start, if_pos nowhere]

/-- A base level is a rule without a target, and no comma is in it. -/
theorem BaseLevel.rule {level : String} {detail : Nat} (h : BaseLevel level detail) :
    ruleOf level = .ok (baseRule detail) ∧ ',' ∉ level.toList := by
  obtain ⟨ne_nil, chars⟩ := h.word
  have word : Word level.toList := by
    refine ⟨ne_nil, fun c hc => ?_⟩
    obtain digit | letter := chars c hc
    · simp [isWordChar, digit]
    · simp [isWordChar, letter]
  have bare : trim level.toList = level.toList := by
    simpa using trim_word blank_nil word blank_nil
  refine ⟨?_, not_mem_word word rfl⟩
  have noMark : findMark '=' '[' 0 level.toList = none :=
    findMark_none (not_mem_word word rfl) (not_mem_word word rfl)
  have read : ruleOf level = .ok (ruleOfWord level) := by
    unfold ruleOf
    dsimp only
    rw [bare, noMark]
    split
    · rename_i empty
      exact absurd empty ne_nil
    · rename_i c cs hcs
      have hc : c ∈ level.toList := hcs ▸ List.mem_cons_self
      have begins : mayBegin c = true := by
        obtain digit | letter := chars c hc
        · simp [mayBegin, isAlphanumeric_of_isDigit digit]
        · simp [mayBegin, isAlphanumeric_of_isAlphabetic (isAlphabetic_of_isAsciiLetter letter)]
      have bracket : c ≠ '[' := by
        rintro rfl
        exact not_mem_word word rfl hc
      rw [if_neg bracket, begins, if_neg (by decide)]
  rw [read, ruleOfWord, h.reads]
  rfl

/-- The levels that settings may hold are base levels, in any letters. -/
theorem exists_baseLevel {level : String} (h : smallLetters level ∈ SettingsProblems.levelNames) :
    ∃ detail, BaseLevel level detail := by
  have words : ∀ word ∈ SettingsProblems.levelNames, word ∈ detailWords := by decide
  have letters := letters_of_detailWords (words _ h)
  have signless : ∀ c, isAsciiLetter c = true → c ≠ '+' ∧ isDigit c = false := by
    intro c letter
    constructor
    · rintro rfl
      cases letter
    simp only [isAsciiLetter, isDigit, Bool.or_eq_true, Bool.and_eq_true, decide_eq_true_eq,
      Bool.and_eq_false_iff, decide_eq_false_iff_not] at letter ⊢
    omega
  have no_sign : level.toList.head? ≠ some '+' := by
    intro head
    exact (signless '+' (letters '+' (List.mem_of_mem_head? head))).1 rfl
  have no_number : readUnsigned level = none := by
    refine Option.eq_none_iff_forall_ne_some.mpr fun n number => ?_
    obtain ⟨ne_nil, digits⟩ := digits_of_readUnsigned number no_sign
    obtain ⟨c, cs, hcs⟩ := List.exists_cons_of_ne_nil ne_nil
    have hc : c ∈ level.toList := hcs ▸ List.mem_cons_self
    exact Bool.false_ne_true ((signless c (letters c hc)).2.symm.trans (digits c hc))
  cases place : detailWords.findIdx? (· == smallLetters level) with
  | none => simpa using List.findIdx?_eq_none_iff.mp place _ (words _ h)
  | some detail => exact ⟨detail, by rw [detailOf, no_number, place], no_sign⟩

theorem rule_of_known : ∀ name ∈ knownParts,
    ruleOf (targetName name ++ "=debug") = .ok (raised name) ∧
      ',' ∉ (targetName name ++ "=debug").toList := by
  decide +kernel

theorem parts_filterText {f : Flags} (known : ∀ name ∈ f.names, name ∈ knownParts) {level : String}
    {detail : Nat} (valid : BaseLevel level detail) :
    parts (filterText f level) = f.names.map (fun n => targetName n ++ "=debug") ++ [level] := by
  set texts := f.names.map (fun n => targetName n ++ "=debug") ++ [level]
  have pieces : ∀ text ∈ texts, ',' ∉ text.toList ∧ text.toList ≠ [] := by
    intro text mem
    obtain named | last := List.mem_append.mp mem
    · obtain ⟨name, on, rfl⟩ := List.mem_map.mp named
      exact ⟨(rule_of_known name (known name on)).2, by simp⟩
    · obtain rfl := List.mem_singleton.mp last
      exact ⟨valid.rule.2, valid.word.1⟩
  have cut : splitOn ',' (filterText f level).toList = texts.map String.toList :=
    splitOn_joinWith rfl (by simp) fun text mem => (pieces text mem).1
  have full : ∀ cs ∈ texts.map String.toList, (!cs.isEmpty) = true := by
    intro cs mem
    obtain ⟨text, mem', rfl⟩ := List.mem_map.mp mem
    simpa using (pieces text mem').2
  rw [parts, cut, List.filter_eq_self.mpr full, List.map_map]
  exact (List.map_congr_left fun _ _ => String.ofList_toList).trans (List.map_id _)

/-- No part of the filter of flags is refused. -/
theorem lenientRules_filterText {f : Flags} (known : ∀ name ∈ f.names, name ∈ knownParts)
    {level : String} {detail : Nat} (valid : BaseLevel level detail) :
    lenientRules (filterText f level) = f.names.map raised ++ [baseRule detail] ∧
      complaints (filterText f level) = [] := by
  have rule (name : String) (mem : name ∈ f.names) := (rule_of_known name (known name mem)).1
  have accepted : acceptedRules (parts (filterText f level)) =
      f.names.map raised ++ [baseRule detail] := by
    rw [parts_filterText known valid, acceptedRules, List.filterMap_append, List.filterMap_map]
    congr 1
    · rw [← List.filterMap_eq_map]
      refine List.filterMap_congr fun name mem => ?_
      simp only [Function.comp_apply, rule name mem]
      rfl
    · simp [valid.rule.1, Except.toOption]
  constructor
  · rw [lenientRules, accepted]
    cases f.names <;> rfl
  · rw [complaints, parts_filterText known valid, List.filterMap_eq_nil_iff]
    intro text mem
    obtain named | last := List.mem_append.mp mem
    · obtain ⟨name, on, rfl⟩ := List.mem_map.mp named
      rw [complaint, rule name on]
    · rw [List.mem_singleton.mp last, complaint, valid.rule.1]

section Deciding
variable {target : String} {has : String → Bool}

theorem best_eq_none_iff {rules : List Rule} {best : Option Rule} :
    rules.foldl (better target has) best = none ↔
      best = none ∧ ∀ rule ∈ rules, rule.applies target has = false := by
  induction rules generalizing best with
  | nil => simp
  | cons rule rules ih =>
    rw [List.foldl_cons, ih, List.forall_mem_cons, ← and_assoc]
    refine and_congr_left fun _ => ?_
    unfold better
    cases rule.applies target has with
    | false => simp
    | true =>
      cases best with
      | none => simp
      | some earlier => cases h : outranks earlier rule <;> simp [h]

theorem mem_of_best {rules : List Rule} {best : Option Rule} {rule : Rule}
    (h : rules.foldl (better target has) best = some rule) :
    best = some rule ∨ rule ∈ rules ∧ rule.applies target has = true := by
  induction rules generalizing best with
  | nil => exact .inl h
  | cons next rules ih =>
    obtain now | ⟨mem, applies⟩ := ih h
    · unfold better at now
      split at now
      · exact .inl now
      · rename_i applies
        have applied : next.applies target has = true := by simpa using applies
        have later : next = rule → rule ∈ next :: rules ∧ rule.applies target has = true := by
          rintro rfl
          exact ⟨List.mem_cons_self, applied⟩
        split at now
        · exact .inr (later (Option.some.inj now))
        · split at now
          · exact .inl now
          · exact .inr (later (Option.some.inj now))
    · exact .inr ⟨List.mem_cons_of_mem _ mem, applies⟩

theorem applies_raised (name : String) :
    (raised name).applies target has = (raised name).covers target := by
  simp [Rule.applies, Rule.decides, raised, Clause.empty]

/-- One rule of a name that is about the target decides, whichever it is; else the base level. -/
theorem detailFor_raised (names : List String) (detail : Nat) :
    detailFor (names.map raised ++ [baseRule detail]) target has =
      if ∃ name ∈ names, (raised name).covers target = true then Level.debug.detail else detail := by
  rw [detailFor, List.foldl_append, List.foldl_cons, List.foldl_nil]
  cases best : (names.map raised).foldl (better target has) none with
  | none =>
    have nowhere : ¬ ∃ name ∈ names, (raised name).covers target = true := by
      rintro ⟨name, mem, covers⟩
      have apart := (best_eq_none_iff.mp best).2 _ (List.mem_map_of_mem mem)
      rw [applies_raised, covers] at apart
      cases apart
    rw [if_neg nowhere]
    rfl
  | some rule =>
    obtain absurd | ⟨mem, applies⟩ := mem_of_best best
    · cases absurd
    · obtain ⟨name, on, rfl⟩ := List.mem_map.mp mem
      rw [applies_raised] at applies
      rw [if_pos ⟨name, on, applies⟩]
      have weight : (baseRule detail).weight < (raised name).weight := by
        simp [Rule.weight, baseRule, raised, Clause.empty]
      have first : outranks (raised name) (baseRule detail) = true := by simp [outranks, weight]
      rw [better, first, if_pos rfl]
      split <;> rfl

end Deciding

theorem isSome_stripStart_iff {start text : List Char} :
    (stripStart start text).isSome = true ↔ start <+: text := by
  constructor
  · intro h
    obtain ⟨rest, hrest⟩ := Option.isSome_iff_exists.mp h
    exact ⟨rest, (eq_append_of_stripStart hrest).symm⟩
  · rintro ⟨rest, rfl⟩
    simp [stripStart_append]

/-- A beginning without the first character of what follows lies in front of it. -/
theorem prefix_of_prefix_append {start front rest : List Char} {c : Char} (hc : c ∉ start)
    (h : start <+: front ++ c :: rest) : start <+: front := by
  obtain short | long := List.prefix_or_prefix_of_prefix h (List.prefix_append front (c :: rest))
  · exact short
  · obtain ⟨more, rfl⟩ := long
    obtain ⟨behind, hbehind⟩ := h
    rw [List.append_assoc, List.append_cancel_left_eq] at hbehind
    cases more with
    | nil => simp
    | cons d more =>
      rw [List.cons_append, List.cons.injEq] at hbehind
      simp [hbehind.1] at hc

theorem covers_raised_iff {name part target : String} (hname : name ∈ knownParts)
    (hpart : part ∈ knownParts) (place : InPart part target) :
    (raised name).covers target = true ↔ name = part ∨ name = firstPart := by
  have colon : ∀ name ∈ knownParts, ':' ∉ (targetName name).toList := by decide +kernel
  have begins : ∀ name ∈ knownParts, ∀ part ∈ knownParts,
      (targetName name).toList <+: (targetName part).toList ↔
        name = part ∨ name = firstPart := by decide +kernel
  have start : (raised name).covers target = true ↔ (targetName name).toList <+: target.toList :=
    isSome_stripStart_iff
  rw [start, ← begins name hname part hpart]
  obtain rfl | ⟨rest, rfl⟩ := place
  · rfl
  · have text : (targetName part ++ "::" ++ rest).toList =
        (targetName part).toList ++ ':' :: (':' :: rest.toList) := by simp
    rw [text]
    exact ⟨prefix_of_prefix_append (colon name hname), fun h => h.trans (List.prefix_append _ _)⟩

theorem passes_filterText {f : Flags} (known : ∀ name ∈ f.names, name ∈ knownParts)
    {level part : String} {detail : Nat} (valid : BaseLevel level detail) (hpart : part ∈ knownParts)
    {e : Event} (place : InPart part e.target) :
    (filtered (chooseRules f level none).1 e).isSome = true ↔
      e.level.detail ≤
        if f.isEnabled part = true ∨ f.isEnabled firstPart = true then Level.debug.detail
        else detail := by
  have rules : (chooseRules f level none).1 = f.names.map raised ++ [baseRule detail] :=
    (lenientRules_filterText known valid).1
  have plain : ∀ rule ∈ (chooseRules f level none).1, rule.opens = false := by
    intro rule mem
    rw [rules] at mem
    obtain named | last := List.mem_append.mp mem
    · obtain ⟨name, -, rfl⟩ := List.mem_map.mp named
      exact opens_empty _ _
    · rw [List.mem_singleton.mp last]
      exact opens_empty _ _
  have raises : (∃ name ∈ f.names, (raised name).covers e.target = true) ↔
      f.isEnabled part = true ∨ f.isEnabled firstPart = true := by
    simp only [Flags.isEnabled, List.contains_iff_mem]
    constructor
    · rintro ⟨name, mem, covers⟩
      obtain rfl | rfl := (covers_raised_iff (known name mem) hpart place).mp covers
      · exact .inl mem
      · exact .inr mem
    · rintro (mem | mem)
      · exact ⟨part, mem, (covers_raised_iff hpart hpart place).mpr (.inl rfl)⟩
      · exact ⟨firstPart, mem, (covers_raised_iff (known _ mem) hpart place).mpr (.inr rfl)⟩
  rw [isSome_filtered_of_not_opens plain, passes, decide_eq_true_iff, rules, detailFor_raised]
  simp only [raises]

/-- With known names and a base level, nothing is refused. An event of a part that is switched on
passes up to debugging. Of the other parts exactly those events pass that pass with the base level
alone, unless the first part is switched on; then theirs too pass up to debugging. -/
theorem parts_raised {f : Flags} (known : ∀ name ∈ f.names, name ∈ knownParts) {level : String}
    {detail : Nat} (valid : BaseLevel level detail) {part : String} (hpart : part ∈ knownParts)
    {e : Event} (place : InPart part e.target) :
    (chooseRules f level none).2 = [] ∧
      ((filtered (chooseRules Flags.none level none).1 e).isSome = true ↔
        e.level.detail ≤ detail) ∧
      (f.isEnabled part = true →
        ((filtered (chooseRules f level none).1 e).isSome = true ↔
          e.level.detail ≤ Level.debug.detail)) ∧
      (f.isEnabled part = false → f.isEnabled firstPart = false →
        (filtered (chooseRules f level none).1 e).isSome =
          (filtered (chooseRules Flags.none level none).1 e).isSome) ∧
      (f.isEnabled part = false → f.isEnabled firstPart = true →
        ((filtered (chooseRules f level none).1 e).isSome = true ↔
          e.level.detail ≤ Level.debug.detail)) := by
  have with_flags := passes_filterText known valid hpart place
  have base : (filtered (chooseRules Flags.none level none).1 e).isSome = true ↔
      e.level.detail ≤ detail := by
    simpa [Flags.isEnabled, Flags.none] using
      passes_filterText (show ∀ name ∈ Flags.none.names, name ∈ knownParts from nofun) valid hpart
        place
  refine ⟨(lenientRules_filterText known valid).2, base, fun on => ?_, fun off first => ?_,
    fun _ first => ?_⟩
  · simpa [on] using with_flags
  · rw [Bool.eq_iff_iff, base, with_flags]
    simp [off, first]
  · simpa [first] using with_flags

/-- The configuration alone is raised, over a base level in capital letters. -/
theorem configuration_raised :
    let f := Flags.none.enable "kernelnet-config"
    let debug (target : String) : Event := ⟨.debug, target, "", [], []⟩
    (∀ name ∈ f.names, name ∈ knownParts) ∧ (∃ detail, BaseLevel "WARN" detail) ∧
      (filtered (chooseRules f "WARN" none).1 (debug "kernelnet_config::loader")).isSome = true ∧
      (filtered (chooseRules f "WARN" none).1 (debug "kernelnet_neural")).isSome =
        (filtered (chooseRules Flags.none "WARN" none).1 (debug "kernelnet_neural")).isSome := by
  intro f debug
  have known : ∀ name ∈ f.names, name ∈ knownParts := by decide
  have listed : smallLetters "WARN" ∈ SettingsProblems.levelNames := by decide
  obtain ⟨detail, valid⟩ := exists_baseLevel listed
  have loader : InPart "kernelnet-config" (debug "kernelnet_config::loader").target :=
    .inr ⟨"loader", by decide⟩
  have neural : InPart "kernelnet-neural" (debug "kernelnet_neural").target := .inl (by decide)
  obtain ⟨-, -, on, -, -⟩ := parts_raised known valid (by decide) loader
  obtain ⟨-, -, -, off, -⟩ := parts_raised known valid (by decide) neural
  exact ⟨known, ⟨detail, valid⟩, (on (by decide)).mpr (by decide), off (by decide) (by decide)⟩

/-- The first part raises another one with it, which was to stay at the base level. -/
theorem neighbour_raised :
    let f := Flags.none.enable "kernelnet"
    let e : Event := ⟨.debug, "kernelnet_kernel_engine::network", "Feed skipped", [], []⟩
    InPart "kernelnet-kernel-engine" e.target ∧ f.isEnabled "kernelnet-kernel-engine" = false ∧
      (filtered (chooseRules f "warn" none).1 e).isSome = true ∧
      (filtered (chooseRules Flags.none "warn" none).1 e).isSome = false := by
  exact ⟨.inr ⟨"network", by decide⟩, by decide, by decide +kernel, by decide +kernel⟩

end NeuronKernels.RaisedParts
