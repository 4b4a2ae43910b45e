import NeuronKernels.AlphanumericCharacters
import NeuronKernels.BlankCharacters
import NeuronKernels.DecimalText
import NeuronKernels.LogEvent
import NeuronKernels.PatternReading
import NeuronKernels.TextPieces

/-!
# Log filters

A filter is a list of rules with commas between them. A rule is a level, or a target with a level; a
target alone lets everything of it through. Of the rules whose target begins the target of an event,
the one with the longest target decides; a rule without a target applies to all events, and an event
that no rule applies to is dropped. Of two rules with the same target the later one holds.

A rule may have a clause in brackets after its target, with the name of a span, with the name of a
value in braces, or with both, and the value may be given: as a number, or as a pattern for the end
of a text. Such a rule lets the spans that it speaks of through, and inside of them all events up to
its level, whatever other rules say; of two such rules that differ in nothing else the later one
holds. One that only names a value also takes part in deciding about the events that have the value,
before the same rule without it.
-/

namespace NeuronKernels.LogFilter
open AlphanumericCharacters BlankCharacters DecimalText LogEvent PatternReading TextPattern
open TextPieces

/-- What a rule asks of a value: to be a number, or a text like a pattern. No value of a span is a
truth value or a number with a sign, a point or an exponent: such demands are `never` met. -/
inductive Wanted
  | number (n : Nat)
  | never
  | like (text : String) (pattern : Pattern)
  deriving DecidableEq

/-- A value that a rule asks for, by its name alone or also by what it has to be. -/
structure Demand where
  name : String
  wanted : Option Wanted
  deriving DecidableEq

structure Clause where
  span : Option String
  demand : Option Demand
  deriving DecidableEq

def Clause.empty : Clause := ⟨none, none⟩

/-- A rule: events of a target are let through up to a detail, nothing at all at zero. -/
structure Rule where
  target : Option String
  clause : Clause
  detail : Nat
  deriving DecidableEq

inductive Refusal
  | malformed
  | unknownLevel
  | badPattern (fault : PatternFault)
  deriving DecidableEq

def Refusal.message : Refusal → String
  | .malformed => "invalid filter directive"
  | .unknownLevel =>
    "error parsing level filter: expected one of \"off\", \"error\", \"warn\", \"info\", " ++
      "\"debug\", \"trace\", or a number 0-5"
  | .badPattern fault => "invalid field filter: " ++ fault.message

/-- The words for details, from none at all to everything. -/
def detailWords : List String := ["off", "error", "warn", "info", "debug", "trace"]

def fullDetail : Nat := 5

/-- A detail given by its word, in any letters, or by its number. -/
def detailOf (text : String) : Option Nat :=
  match readUnsigned text with
  | some n => if n ≤ fullDetail then some n else none
  | none => detailWords.findIdx? (· == smallLetters text)

def mayBegin (c : Char) : Bool := isAlphanumeric c || c == '-' || c == ':' || c == '_'

/-- The rule with the level of a text behind the equals sign; no text lets everything through. -/
def ruleWithLevel (target : Option String) (clause : Clause) (level : List Char) :
    Except Refusal Rule :=
  if level.isEmpty then .ok ⟨target, clause, fullDetail⟩
  else
    match detailOf (String.ofList level) with
    | some detail => .ok ⟨target, clause, detail⟩
    | none => .error .unknownLevel

/-- The rule of a text without an equals sign or brackets: a level, or else a target. -/
def ruleOfWord (text : String) : Rule :=
  match detailOf text with
  | some detail => ⟨none, .empty, detail⟩
  | none => ⟨some text, .empty, fullDetail⟩

def wantedOf (text : String) : Except PatternFault Wanted :=
  if text = "true" ∨ text = "false" then .ok .never
  else
    match readUnsigned text with
    | some n => .ok (.number n)
    | none => if isNumeral text then .ok .never else (readPattern text).map (.like text)

/-- The demand of a text in braces, which must not be empty. What follows a second equals sign does
not count. -/
def demandOf (cs : List Char) : Except Refusal Demand :=
  if cs.isEmpty then .error .malformed
  else
    match splitOn '=' cs with
    | name :: value :: _ =>
      match wantedOf (String.ofList value) with
      | .ok wanted => .ok ⟨String.ofList name, some wanted⟩
      | .error fault => .error (.badPattern fault)
    | _ => .ok ⟨String.ofList cs, none⟩

/-- The place of the first of two marks, from a place on. Places are counted in bytes. -/
def findMark (one other : Char) (start : Nat) (cs : List Char) : Option Nat :=
  let isNoMark := fun c => c != one && c != other
  let rest := dropBytes start cs
  if rest.all isNoMark then none else some (start + byteCount (rest.takeWhile isNoMark))

def charAt (place : Nat) (cs : List Char) : Option Char := (dropBytes place cs).head?

def between (cs : List Char) (start stop : Nat) : List Char :=
  takeBytes (stop - start) (dropBytes start cs)

/-- The clause that starts behind the opening bracket, and the place behind its closing bracket.
Places are those of `bare`, but what stands there is taken from `cs`. -/
def clauseFrom (cs bare : List Char) (start : Nat) : Except Refusal (Clause × Nat) :=
  let closing := Char.ofNat 0x7d
  match findMark ']' (Char.ofNat 0x7b) start bare with
  | none => .error .malformed
  | some place =>
    let span := String.ofList (between cs start place)
    if charAt place bare = some ']' then .ok (⟨some span, none⟩, place + 1)
    else
      match findMark closing closing (place + 1) bare with
      | none => .error .malformed
      | some stop =>
        match demandOf (between cs (place + 1) stop) with
        | .error refusal => .error refusal
        | .ok demand =>
          if charAt (stop + 1) bare = some ']' then
            .ok (⟨if span.isEmpty then none else some span, some demand⟩, stop + 2)
          else .error .malformed

def ruleWithClause (target : Option String) (cs bare : List Char) (start : Nat) :
    Except Refusal Rule :=
  match clauseFrom cs bare start with
  | .error refusal => .error refusal
  | .ok (clause, place) =>
    match charAt place bare with
    | none => .ok ⟨target, clause, fullDetail⟩
    | some c =>
      if c = '=' then ruleWithLevel target clause (dropBytes (place + 1) cs)
      else .error .malformed

/-- The rule of a text. Blanks at the ends do not count for where the marks of the rule stand, but
they are not taken off. A text of blanks alone is no rule. -/
def ruleOf (text : String) : Except Refusal Rule :=
  let cs := text.toList
  let bare := trim cs
  match bare with
  | [] => .error .malformed
  | c :: _ =>
    if c = '[' then ruleWithClause none cs bare 1
    else if !mayBegin c then .error .malformed
    else
      match findMark '=' '[' 0 bare with
      | none => .ok (ruleOfWord text)
      | some place =>
        let target := some (String.ofList (takeBytes place cs))
        if charAt place bare = some '=' then ruleWithLevel target .empty (dropBytes (place + 1) cs)
        else ruleWithClause target cs bare (place + 1)

def parts (text : String) : List String :=
  ((splitOn ',' text.toList).filter fun cs => !cs.isEmpty).map String.ofList

def rulesOf : List String → Option (List Rule)
  | [] => some []
  | part :: rest =>
    match ruleOf part, rulesOf rest with
    | .ok rule, some rules => some (rule :: rules)
    | _, _ => none

def acceptedRules (ps : List String) : List Rule :=
  ps.filterMap fun part => (ruleOf part).toOption

def complaint (part : String) : Option String :=
  match ruleOf part with
  | .ok _ => none
  | .error refusal => some ("ignoring `" ++ part ++ "`: " ++ refusal.message)

def complaints (text : String) : List String := (parts text).filterMap complaint

/-- The rules of a text that may have refused parts; with no rule left, errors pass. -/
def lenientRules (text : String) : List Rule :=
  match acceptedRules (parts text) with
  | [] => [⟨none, .empty, Level.error.detail⟩]
  | rules => rules

/-- The rules of a text that must not have refused parts; with no rule, nothing passes. -/
def strictRules (text : String) : Option (List Rule) :=
  match rulesOf (parts text) with
  | some [] => some [⟨none, .empty, 0⟩]
  | rules => rules

def Rule.covers (rule : Rule) (target : String) : Bool :=
  match rule.target with
  | none => true
  | some start => (stripStart start.toList target.toList).isSome

def Rule.demandName (rule : Rule) : String := (rule.clause.demand.map Demand.name).getD ""

/-- Whether a rule takes part in deciding about single events and spans. -/
def Rule.decides (rule : Rule) : Bool :=
  rule.clause.span.isNone && (rule.clause.demand.bind Demand.wanted).isNone

def Rule.opens (rule : Rule) : Bool := rule.clause.span.isSome || rule.clause.demand.isSome

def Rule.applies (rule : Rule) (target : String) (has : String → Bool) : Bool :=
  rule.decides && rule.covers target && (rule.clause.demand.isNone || has rule.demandName)

/-- How much a rule says: more with a longer target, and of equal targets more with a demand. -/
def Rule.weight (rule : Rule) : Nat :=
  2 * (rule.target.map fun start => start.length + 1).getD 0
    + (if rule.clause.demand.isSome then 1 else 0)

def outranks (earlier later : Rule) : Bool :=
  later.weight < earlier.weight
    || (later.weight == earlier.weight && precedes later.demandName earlier.demandName)

def better (target : String) (has : String → Bool) (best : Option Rule) (rule : Rule) :
    Option Rule :=
  if !rule.applies target has then best
  else
    match best with
    | none => some rule
    | some earlier => if outranks earlier rule then some earlier else some rule

/-- The detail up to which something of a target, with values of certain names, passes. -/
def detailFor (rules : List Rule) (target : String) (has : String → Bool) : Nat :=
  ((rules.foldl (better target has) none).map Rule.detail).getD 0

/-- Whether something passes by itself, wherever it happens. -/
def passes (rules : List Rule) (level : Level) (target : String) (has : String → Bool) : Bool :=
  level.detail ≤ detailFor rules target has

def Wanted.isMetBy : Wanted → FieldValue → Bool
  | .number n, .number m => n == m
  | .like _ pattern, .quoted s => pattern.matchesToEnd s
  | .like _ pattern, .plain s => pattern.matchesToEnd s
  | _, _ => false

def valueIn (span : Span) (name : String) : Option FieldValue :=
  (span.fields.find? fun field => field.1 == name).map Prod.snd

/-- Whether a rule speaks of a span, whatever it asks of the value. -/
def Rule.concerns (rule : Rule) (span : Span) : Bool :=
  rule.opens && rule.covers span.target
    && (rule.clause.span.isNone || rule.clause.span == some span.name)
    && (rule.clause.demand.isNone || (valueIn span rule.demandName).isSome)

def Rule.isMetBy (rule : Rule) (span : Span) : Bool :=
  match rule.clause.demand.bind Demand.wanted, valueIn span rule.demandName with
  | some wanted, some value => wanted.isMetBy value
  | _, _ => true

/-- Whether two rules differ in their details at most. -/
def Rule.agreesWith (rule other : Rule) : Bool :=
  rule.target == other.target && rule.clause == other.clause

/-- The rules without those that a later rule agrees with. -/
def lastOfEach : List Rule → List Rule
  | [] => []
  | rule :: rules =>
    if rules.any rule.agreesWith then lastOfEach rules else rule :: lastOfEach rules

/-- The most that any rule lets through. To find out about values, everything is looked at. -/
def ceiling (rules : List Rule) : Nat :=
  if rules.any fun rule => (rule.clause.demand.bind Demand.wanted).isSome then fullDetail
  else rules.foldl (fun most rule => max most rule.detail) 0

/-- What has been found on the way into the spans around an event: those that pass, and the detail
up to which events inside of them pass. -/
structure Inside where
  spans : List Span
  detail : Nat

def Inside.enter (rules : List Rule) (inside : Inside) (span : Span) : Inside :=
  let mine := (lastOfEach rules).filter fun rule => rule.concerns span
  let wanted := !mine.isEmpty || Level.info.detail ≤ inside.detail
    || passes rules .info span.target fun _ => true
  if wanted && Level.info.detail ≤ ceiling rules then
    ⟨inside.spans ++ [span],
      (mine.filter fun rule => rule.isMetBy span).foldl (fun most rule => max most rule.detail)
        inside.detail⟩
  else inside

/-- Whether an event has a value of a name; its message counts as one. -/
def hasField (e : Event) (name : String) : Bool :=
  name == "message" || e.fields.any fun field => field.1 == name

/-- An event without the spans that do not pass; `none` if it does not pass itself. -/
def filtered (rules : List Rule) (e : Event) : Option Event :=
  let inside := e.spans.foldl (Inside.enter rules) ⟨[], 0⟩
  if e.level.detail ≤ inside.detail || passes rules e.level e.target (hasField e) then
    some { e with spans := inside.spans }
  else none

theorem opens_empty (target : Option String) (detail : Nat) :
    (Rule.mk target .empty detail).opens = false := rfl

theorem mem_of_mem_lastOfEach {rules : List Rule} {rule : Rule}
    (h : rule ∈ lastOfEach rules) : rule ∈ rules := by
  induction rules with
  | nil => exact h
  | cons first rules ih =>
    rw [lastOfEach] at h
    split at h
    · exact List.mem_cons_of_mem _ (ih h)
    · rcases List.mem_cons.1 h with rfl | h
      · exact List.mem_cons_self
      · exact List.mem_cons_of_mem _ (ih h)

theorem detail_enter_of_not_opens {rules : List Rule} (h : ∀ rule ∈ rules, rule.opens = false)
    (inside : Inside) (span : Span) : (inside.enter rules span).detail = inside.detail := by
  have hmine : ((lastOfEach rules).filter fun rule => rule.concerns span) = [] := by
    rw [List.filter_eq_nil_iff]
    intro rule hr
    simp [Rule.concerns, h rule (mem_of_mem_lastOfEach hr)]
  unfold Inside.enter
  rw [hmine]
  dsimp only
  split <;> rfl

theorem isSome_filtered_of_not_opens {rules : List Rule}
    (h : ∀ rule ∈ rules, rule.opens = false) (e : Event) :
    (filtered rules e).isSome = passes rules e.level e.target (hasField e) := by
  have hd : ∀ (spans : List Span) (inside : Inside),
      (spans.foldl (Inside.enter rules) inside).detail = inside.detail := by
    intro spans
    induction spans with
    | nil => exact fun _ => rfl
    | cons span spans ih =>
      intro inside
      rw [List.foldl_cons, ih, detail_enter_of_not_opens h]
  have hl : ¬ e.level.detail ≤ 0 := by cases e.level <;> decide
  unfold filtered
  simp only [hd, hl, decide_false, Bool.false_or]
  split <;> simp_all

end NeuronKernels.LogFilter
