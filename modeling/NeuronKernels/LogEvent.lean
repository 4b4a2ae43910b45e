import NeuronKernels.QuotedText
import NeuronKernels.TextPieces

/-!
# Log events

Operations report what they do as events. An event has a level, the place in the program that it
comes from, a message, named values, and the spans that were open around it, the outermost first. An
event only says that a duration was measured, not how long it was: whoever writes it down supplies
the figure.
-/

namespace NeuronKernels.LogEvent

/-- How important an event is, the most important first. -/
inductive Level
  | error
  | warn
  | info
  | debug
  | trace
  deriving DecidableEq, Repr

namespace Level

def word : Level → String
  | error => "ERROR"
  | warn => "WARN"
  | info => "INFO"
  | debug => "DEBUG"
  | trace => "TRACE"

/-- The place of a level, from the most important on. -/
def detail : Level → Nat
  | error => 1
  | warn => 2
  | info => 3
  | debug => 4
  | trace => 5

end Level

/-- A named value: a number, a text in quotes, a text as it is, or a measured duration. -/
inductive FieldValue
  | number (n : Nat)
  | quoted (s : String)
  | plain (s : String)
  | elapsed
  deriving DecidableEq

/-- A stretch of work that events happen in; all spans have the level of information. -/
structure Span where
  name : String
  target : String
  fields : List (String × FieldValue)
  deriving DecidableEq

structure Event where
  level : Level
  target : String
  message : String
  fields : List (String × FieldValue)
  spans : List Span
  deriving DecidableEq

def Event.inside (span : Span) (e : Event) : Event := { e with spans := span :: e.spans }

/-- The text of a value; `duration` is the figure for measured durations. -/
def FieldValue.text (duration : String) : FieldValue → String
  | .number n => toString n
  | .quoted s => QuotedText.quoted s
  | .plain s => s
  | .elapsed => duration

def fieldText (duration : String) (field : String × FieldValue) : String :=
  field.1 ++ "=" ++ field.2.text duration

def fieldsText (duration : String) (fields : List (String × FieldValue)) : String :=
  TextPieces.joinWith " " (fields.map (fieldText duration))

def Span.text (duration : String) (span : Span) : String :=
  if span.fields.isEmpty then span.name
  else span.name ++ "\x7b" ++ fieldsText duration span.fields ++ "\x7d"

/-- The spans of an event with a colon after each and a blank behind, nothing if there are none. -/
def spansText (duration : String) (spans : List Span) : String :=
  if spans.isEmpty then ""
  else TextPieces.concat (spans.map fun s => s.text duration ++ ":") ++ " "

/-- The line of an event; `withTarget` says whether the place that it comes from is shown. -/
def Event.line (duration : String) (withTarget : Bool) (e : Event) : String :=
  e.level.word ++ " " ++ spansText duration e.spans
    ++ (if withTarget then e.target ++ ": " else "") ++ e.message
    ++ (if e.fields.isEmpty then "" else " " ++ fieldsText duration e.fields)

end NeuronKernels.LogEvent
