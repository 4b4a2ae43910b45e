import NeuronKernels.Proofs.ArenaBindings
import NeuronKernels.Proofs.StandaloneConstants

/-!
# The header and the source of a standalone pair

The two files are written from the same export by different templates. Apart from the guard of the
header they are determined by the name, the first kernels, the arena and the outputs. That the
header does not declare a function is told by its letters (`not_declared`); that the source does not
define it, by the function that stands last in front of the arrays (`not_defined`), or line by line
if no kernel brings the declaration along (`not_holds_source`). The sizes are read back from the
header (`declaredSize_line`) and compared with what a compiler finds between the braces of the
arrays.
-/

namespace NeuronKernels.StandalonePair
open ArenaBindings BinaryFloat JsonRoundTrip KernelLayout KernelUnit StandaloneConstants
open StandaloneSource TextPieces WrittenArrays

variable {p : Precision}

/-- The text stands in the file. -/
def Holds (file text : String) : Prop := text.toList <:+: file.toList

/-- A function with one call in it. -/
def function (head entryPoint arguments : String) : String :=
  line (head ++ " \x7b") ++ line ("    " ++ entryPoint ++ arguments) ++ "\x7d\n\n"

def feedArguments : String := "(input, kOutputs, kMemory);"

def trainArguments : String := "(&rate, target, kMemory);"

/-- The arrays at the end of the source. -/
def arrays (x : Export p) : String :=
  arrayText "kMemory" x.memory ++ line "" ++ arrayText "kOutputs" x.outputs

/-- The last function in front of the arrays has the head and the arguments. -/
def Defines (source : String) (x : Export p) (head arguments : String) : Prop :=
  ∃ front entryPoint, source = front ++ function head entryPoint arguments ++ arrays x

/-- A function of the source calls the entry point of the kernel, and somewhere in front of it the
whole text of the kernel stands as a static function. -/
def Wraps (source head arguments : String) (k : Kernel) : Prop :=
  ∃ before between behind, source =
    before ++ line ("static " ++ k.text) ++ between ++ function head k.entryPoint arguments ++
      behind

/-- How the definition of a size begins. -/
def sizeHead (array : String) : String := "const int " ++ array ++ "Size = "

/-- The number of elements that a header gives for an array, in the first line that does. -/
def declaredSize (array : String) (header : List Char) : Option Nat :=
  ((splitOn '\n' header).findSome? (stripStart (sizeHead array).toList)).map fun rest =>
    digitsFrom 0 (rest.takeWhile isDigit)

/-- The header gives the number of elements in front of the closing zero. -/
def Counted (header array definition : String) : Prop :=
  ∃ initializers, elements definition.toList = initializers ++ [['0']] ∧
    declaredSize array header.toList = some initializers.length

/-- A header between the lines of its guard. -/
def guarded (token body : String) : String :=
  line ("#ifndef " ++ guardName token) ++ line ("#define " ++ guardName token) ++ body ++
    line ("#endif //" ++ guardName token)

/-- The arrays and their sizes as a header declares them. -/
def declarations (x : Export p) : String :=
  concat
    [line "",
     line ("extern " ++ typeName p ++ " kMemory[];"),
     line ("const int kMemorySize = " ++ toString x.memory.length ++ ";"),
     line "",
     line ("extern " ++ typeName p ++ " kOutputs[];"),
     line ("const int kOutputsSize = " ++ toString x.outputs.length ++ ";"),
     line ""]

/-- The header without its guard. -/
def headerBody (name : String) (x : Export p) (trainable : Bool) : String :=
  declarations x ++ line (feedHead p name ++ ";") ++
    (if trainable then line (trainHead p name ++ ";") else "") ++ line ""

theorem headerText_eq (name token : String) (x : Export p) (trainable : Bool) :
    headerText name token x trainable = guarded token (headerBody name x trainable) := by
  simp [headerText, headerBody, declarations, guarded, concat, String.append_assoc]

/-- The source up to the first kernel. -/
def preamble (name : String) (x : Export p) : String :=
  line ("#include \"" ++ name ++ ".h\"") ++
    (if needsMath x then line "#include <math.h>" else "") ++
      (line "#define kernel" ++ line "#define global" ++ line "")

theorem feedWrapper_eq (name : String) (k : Kernel) :
    feedWrapper p name k = function (feedHead p name) k.entryPoint feedArguments := rfl

theorem trainWrapper_eq (name : String) (k : Kernel) :
    trainWrapper p name k = function (trainHead p name) k.entryPoint trainArguments := rfl

theorem sourceText_parts (name : String) (feed : Kernel) (train : Option Kernel) (x : Export p) :
    sourceText name (headerName name) feed train x =
      preamble name x ++ kernelText feed ++ optionalText kernelText train ++
        feedWrapper p name feed ++ optionalText (trainWrapper p name) train ++ arrays x := by
  rw [sourceText_eq]
  simp [code, preamble, arrays, headerName, concat, String.append_assoc]

theorem isSome_exportedTrain (constOnly : Bool) (x : Export p) :
    (exportedTrain constOnly x).isSome = true ↔ constOnly = false ∧ x.train ≠ [] := by
  cases h : x.train <;> cases constOnly <;> simp [exportedTrain, h]

def commas (s : String) : Nat := s.toList.count ','

theorem commas_append (s t : String) : commas (s ++ t) = commas s + commas t := by
  simp [commas]

theorem commas_line (s : String) : commas (line s) = commas s := by
  simp [commas, line]

theorem commas_typeName (p : Precision) : commas (typeName p) = 0 :=
  List.count_eq_zero.mpr (not_mem_typeName rfl p)

theorem commas_repr (n : Nat) : commas n.repr = 0 := by
  have hmem : ',' ∉ n.repr.toList := by
    simpa [JsonLayout.number] using number_not_mem (show isDigit ',' = false from rfl) n
  exact List.count_eq_zero.mpr hmem

theorem commas_declarations (x : Export p) : commas (declarations x) = 0 := by
  have hplain : ∀ s ∈ ["", "extern ", " kMemory[];", "const int kMemorySize = ", ";",
      " kOutputs[];", "const int kOutputsSize = "], commas s = 0 := by decide
  simp [declarations, concat, commas_append, commas_line, commas_typeName, commas_repr, hplain]

theorem commas_feedHead (p : Precision) (name : String) :
    commas (feedHead p name) = commas name := by
  have hplain : ∀ s ∈ ["void ", "Feed(const ", " *input)"], commas s = 0 := by decide
  simp [feedHead, commas_append, commas_typeName, hplain]

theorem commas_trainHead (p : Precision) (name : String) :
    commas (trainHead p name) = commas name + 1 := by
  have hplain : ∀ s ∈ ["void ", "Train(const ", " *target)"], commas s = 0 := by decide
  have hcomma : commas " rate, const " = 1 := rfl
  simp [trainHead, commas_append, commas_typeName, hplain, hcomma]

theorem not_holds_of_commas {s text : String} (h : commas s < commas text) : ¬ Holds s text := by
  intro hs
  have hle : commas text ≤ commas s := hs.sublist.count_le ','
  omega

/-- The declaration has a comma more than the name, and the rest of the header has none. -/
theorem not_declared (name : String) (x : Export p) :
    ¬ Holds (headerBody name x false) (line (trainHead p name ++ ";")) := by
  have hplain : ∀ s ∈ [";", ""], commas s = 0 := by decide
  apply not_holds_of_commas
  simp [headerBody, commas_append, commas_line, commas_declarations, commas_feedHead,
    commas_trainHead, hplain]

theorem train_declared (name : String) (x : Export p) :
    Holds (headerBody name x true) (line (trainHead p name ++ ";")) := by
  refine ⟨(declarations x ++ line (feedHead p name ++ ";")).toList, (line "").toList, ?_⟩
  simp only [headerBody, if_true, String.toList_append]

theorem feed_declared (name : String) (x : Export p) (trainable : Bool) :
    Holds (headerBody name x trainable) (line (feedHead p name ++ ";")) := by
  refine ⟨(declarations x).toList,
    ((if trainable then line (trainHead p name ++ ";") else "") ++ line "").toList, ?_⟩
  simp only [headerBody, String.toList_append, List.append_assoc]

/-- The two kinds of function differ in front of the name of the arena. -/
theorem not_defined {front front' head head' entry entry' behind : String} :
    front ++ function head entry trainArguments ++ behind ≠
      front' ++ function head' entry' feedArguments ++ behind := by
  intro h
  have hfronts : front ++ function head entry trainArguments =
      front' ++ function head' entry' feedArguments := (String.append_left_inj behind).mp h
  have hreverse := congrArg (fun s => s.toList.reverse) hfronts
  simp [function, line, trainArguments, feedArguments] at hreverse

theorem prefix_of_line {pattern rest : List Char} (first : List Char) (hp : '\n' ∉ pattern)
    (h : pattern <+: first ++ '\n' :: rest) : pattern <+: first := by
  have hline : first ++ ['\n'] <+: first ++ '\n' :: rest := ⟨rest, by simp⟩
  obtain hinside | hacross := List.prefix_or_prefix_of_prefix h hline
  · obtain rfl | hfirst := List.prefix_concat_iff.mp hinside
    · simp at hp
    · exact hfirst
  · exact absurd (hacross.subset (by simp)) hp

theorem infix_of_line {pattern first rest : List Char} (hp : '\n' ∉ pattern)
    (h : pattern <:+: first ++ '\n' :: rest) : pattern <:+: first ∨ pattern <:+: rest := by
  induction first with
  | nil =>
    obtain hstart | hrest := List.infix_cons_iff.mp h
    · exact .inl (prefix_of_line [] hp hstart).isInfix
    · exact .inr hrest
  | cons c first ih =>
    obtain hstart | hlater := List.infix_cons_iff.mp h
    · exact .inl (prefix_of_line (c :: first) hp hstart).isInfix
    · exact (ih hlater).imp_left fun hfirst => List.infix_cons_iff.mpr (.inr hfirst)

theorem not_holds_lines {lines : List String} {rest text : String} (ht : '\n' ∉ text.toList)
    (hl : ∀ s ∈ lines, ¬ Holds s text) (hr : ¬ Holds rest text) :
    ¬ Holds (concat (lines.map line) ++ rest) text := by
  induction lines with
  | nil => simpa [concat] using hr
  | cons s lines ih =>
    obtain ⟨hs, hlines⟩ := List.forall_mem_cons.mp hl
    intro h
    have hchars : (concat ((s :: lines).map line) ++ rest).toList =
        s.toList ++ '\n' :: (concat (lines.map line) ++ rest).toList := by simp [concat, line]
    rw [Holds, hchars] at h
    exact (infix_of_line ht h).elim hs (ih hlines)

theorem not_holds_of_not_mem {s text : String} (c : Char) (ht : c ∈ text.toList)
    (hs : c ∉ s.toList) : ¬ Holds s text :=
  fun h => hs (h.subset ht)

theorem not_mem_arrayText {name : String} (hname : '(' ∉ name.toList) (values : List (Value p)) :
    '(' ∉ (arrayText name values).toList := by
  have hrow : '(' ∉ row itemGap (values.map fun v => (valueText v).toList) :=
    not_mem_row rfl rfl (by decide) blank_itemGap fun word => word_of_mem
  have htype := not_mem_typeName (show isAsciiLetter '(' = false from rfl) p
  simp [arrayText, arrayBody, toList_items, line, htype, hname, hrow]

theorem not_holds_arrays (name : String) (x : Export p) :
    ¬ Holds (arrays x) (trainHead p name) := by
  apply not_holds_of_not_mem '('
  · simp [trainHead]
  · simp [arrays, line, not_mem_arrayText]

/-- No line of the source that is written from the forward kernel has the text. -/
structure Silent (k : Kernel) (text : String) : Prop where
  body : ¬ Holds ("static " ++ k.text) text
  call : ¬ Holds ("    " ++ k.entryPoint ++ feedArguments) text

/-- The source of a forward kernel alone up to the arrays. The text of the kernel counts as one
line. -/
def codeLines (name : String) (feed : Kernel) (x : Export p) : List String :=
  ["#include \"" ++ name ++ ".h\""] ++ (if needsMath x then ["#include <math.h>"] else []) ++
    ["#define kernel", "#define global", "", "static " ++ feed.text, feedHead p name ++ " \x7b",
      "    " ++ feed.entryPoint ++ feedArguments, "\x7d", ""]

theorem sourceText_none (name : String) (feed : Kernel) (x : Export p) :
    sourceText name (headerName name) feed none x =
      concat ((codeLines name feed x).map line) ++ arrays x := by
  have hend : ("\x7d\n\n" : String) = line "\x7d" ++ line "" := by decide
  rw [sourceText_parts]
  cases hmath : needsMath x <;>
    simp [codeLines, preamble, optionalText, kernelText, feedWrapper_eq, function, hend, hmath,
      concat, String.append_assoc]

/-- Every line of the source has no more commas than the name, or comes from the kernel. -/
theorem commas_codeLines {name : String} {feed : Kernel} {x : Export p} {s : String}
    (h : s ∈ codeLines name feed x) :
    commas s ≤ commas name ∨ s = "static " ++ feed.text ∨
      s = "    " ++ feed.entryPoint ++ feedArguments := by
  have hplain : ∀ s ∈ ["", "#define kernel", "#define global", "#include <math.h>", "\x7d",
      " \x7b", "#include \"", ".h\""], commas s = 0 := by decide
  have hmath : ∀ s ∈ if needsMath x then ["#include <math.h>"] else [], commas s = 0 := by
    intro s hs
    split at hs
    · obtain rfl := List.mem_singleton.mp hs
      exact hplain _ (by simp)
    · cases hs
  rw [codeLines, List.append_assoc] at h
  obtain hs | hs := List.mem_append.mp h
  · obtain rfl := List.mem_singleton.mp hs
    simp [commas_append, hplain]
  obtain hs | hs := List.mem_append.mp hs
  · simp [hmath s hs]
  · simp only [List.mem_cons, List.not_mem_nil, or_false] at hs
    obtain rfl | rfl | rfl | rfl | rfl | rfl | rfl | rfl := hs <;>
      simp [commas_append, commas_feedHead, hplain]

theorem not_holds_source {name : String} {feed : Kernel} (hname : '\n' ∉ name.toList)
    (hfeed : Silent feed (trainHead p name)) (x : Export p) :
    ¬ Holds (sourceText name (headerName name) feed none x) (trainHead p name) := by
  have hbreak : '\n' ∉ (trainHead p name).toList := by
    have htype := not_mem_typeName (show isAsciiLetter '\n' = false from rfl) p
    simp [trainHead, htype, hname]
  rw [sourceText_none]
  refine not_holds_lines hbreak (fun s hs => ?_) (not_holds_arrays name x)
  obtain hle | rfl | rfl := commas_codeLines hs
  · apply not_holds_of_commas
    rw [commas_trainHead]
    omega
  · exact hfeed.body
  · exact hfeed.call

theorem splitOn_line {s : String} (hs : '\n' ∉ s.toList) (rest : List Char) :
    splitOn '\n' ((line s).toList ++ rest) = s.toList :: splitOn '\n' rest := by
  have hline : (line s).toList ++ rest = s.toList ++ '\n' :: rest := by simp [line]
  rw [hline, splitOn_append, splitOn_of_not_mem hs, List.singleton_append]

theorem declaredSize_skip {array s : String} (hs : '\n' ∉ s.toList)
    (hstart : stripStart (sizeHead array).toList s.toList = none) (rest : List Char) :
    declaredSize array ((line s).toList ++ rest) = declaredSize array rest := by
  rw [declaredSize, splitOn_line hs, List.findSome?_cons, hstart, declaredSize]

theorem toList_size (array : String) (n : Nat) :
    (sizeHead array ++ toString n ++ ";").toList =
      (sizeHead array).toList ++ (JsonLayout.number n ++ [';']) := by
  simp [JsonLayout.number]

theorem break_not_mem_size {array : String} (ha : '\n' ∉ array.toList) (n : Nat) :
    '\n' ∉ (sizeHead array ++ toString n ++ ";").toList := by
  have hnumber := number_not_mem (show isDigit '\n' = false from rfl) n
  rw [toList_size]
  simp [sizeHead, ha, hnumber]

theorem declaredSize_line {array : String} (ha : '\n' ∉ array.toList) (n : Nat)
    (rest : List Char) :
    declaredSize array ((line (sizeHead array ++ toString n ++ ";")).toList ++ rest) =
      some n := by
  have hdigits : (JsonLayout.number n ++ [';']).takeWhile isDigit = JsonLayout.number n := by
    rw [List.takeWhile_append_of_pos fun c => isDigit_of_mem_number]
    simp [isDigit]
  rw [declaredSize, splitOn_line (break_not_mem_size ha n), List.findSome?_cons, toList_size,
    stripStart_append, Option.map_some, hdigits, digitsFrom_number]

theorem declaredSize_memory (name : String) (x : Export p) (trainable : Bool) :
    declaredSize "kMemory" (headerBody name x trainable).toList = some x.memory.length := by
  have hextern : '\n' ∉ ("extern " ++ typeName p ++ " kMemory[];").toList ∧
      stripStart (sizeHead "kMemory").toList ("extern " ++ typeName p ++ " kMemory[];").toList =
        none := by cases p <;> decide
  simp only [headerBody, declarations, concat, String.toList_append, List.append_assoc]
  rw [declaredSize_skip (by decide) rfl, declaredSize_skip hextern.1 hextern.2]
  exact declaredSize_line (by decide) x.memory.length _

theorem declaredSize_outputs (name : String) (x : Export p) (trainable : Bool) :
    declaredSize "kOutputs" (headerBody name x trainable).toList = some x.outputs.length := by
  have hextern : ∀ s ∈ ["extern " ++ typeName p ++ " kMemory[];",
      "extern " ++ typeName p ++ " kOutputs[];"], '\n' ∉ s.toList ∧
        stripStart (sizeHead "kOutputs").toList s.toList = none := by cases p <;> decide
  have hmemory := hextern _ List.mem_cons_self
  have houtputs := hextern _ (List.mem_cons_of_mem _ List.mem_cons_self)
  have hother : stripStart (sizeHead "kOutputs").toList
      (sizeHead "kMemory" ++ toString x.memory.length ++ ";").toList = none := by
    rw [toList_size]
    rfl
  simp only [headerBody, declarations, concat, String.toList_append, List.append_assoc]
  rw [declaredSize_skip (by decide) rfl, declaredSize_skip hmemory.1 hmemory.2]
  refine (declaredSize_skip (break_not_mem_size (by decide) x.memory.length) hother _).trans ?_
  rw [declaredSize_skip (by decide) rfl, declaredSize_skip houtputs.1 houtputs.2]
  exact declaredSize_line (by decide) x.outputs.length _

theorem counted {header array : String} {values : List (Value p)}
    (hname : '\x7b' ∉ array.toList)
    (h : declaredSize array header.toList = some values.length) :
    Counted header array (arrayText array values) := by
  refine ⟨_, elements_arrayText hname values, ?_⟩
  rw [h, List.length_map]

/-- What a header, without its guard, and a source have to agree on. -/
structure Agrees (name : String) (constOnly : Bool) (x : Export p) (feed : Kernel)
    (source body : String) : Prop where
  includes : ∃ rest, source = line ("#include \"" ++ name ++ ".h\"") ++ rest
  feedDeclared : Holds body (line (feedHead p name ++ ";"))
  feedDefined : Wraps source (feedHead p name) feedArguments feed
  trainDeclared : Holds body (line (trainHead p name ++ ";")) ↔ constOnly = false ∧ x.train ≠ []
  trainDefined : Defines source x (trainHead p name) trainArguments ↔
    constOnly = false ∧ x.train ≠ []
  trainHolds : '\n' ∉ name.toList → Silent feed (trainHead p name) →
    (Holds source (trainHead p name) ↔ constOnly = false ∧ x.train ≠ [])
  trainWraps : ∀ train rest, constOnly = false → x.train = train :: rest →
    Wraps source (trainHead p name) trainArguments train
  ends : ∃ front, source = front ++ arrays x
  memoryCounted : Counted body "kMemory" (arrayText "kMemory" x.memory)
  outputsCounted : Counted body "kOutputs" (arrayText "kOutputs" x.outputs)

theorem files_cons {x : Export p} {feed : Kernel} {rest : List Kernel} (h : x.feed = feed :: rest)
    (name token : String) (constOnly : Bool) :
    files name token constOnly x =
      [(name ++ ".c", sourceText name (headerName name) feed (exportedTrain constOnly x) x),
        (name ++ ".h",
          guarded token (headerBody name x (exportedTrain constOnly x).isSome))] := by
  rw [files, h, ← headerText_eq]
  rfl

theorem feed_wraps (name : String) (feed : Kernel) (train : Option Kernel) (x : Export p) :
    Wraps (sourceText name (headerName name) feed train x) (feedHead p name) feedArguments
      feed := by
  refine ⟨preamble name x, optionalText kernelText train,
    optionalText (trainWrapper p name) train ++ arrays x, ?_⟩
  simp only [sourceText_parts, kernelText, feedWrapper_eq, String.append_assoc]

theorem train_wraps (name : String) (feed train : Kernel) (x : Export p) :
    Wraps (sourceText name (headerName name) feed (some train) x) (trainHead p name)
      trainArguments train := by
  refine ⟨preamble name x ++ kernelText feed, feedWrapper p name feed, arrays x, ?_⟩
  simp only [sourceText_parts, optionalText, kernelText, trainWrapper_eq]

theorem declares_iff (name : String) (x : Export p) (trainable : Bool) :
    Holds (headerBody name x trainable) (line (trainHead p name ++ ";")) ↔ trainable = true := by
  cases trainable with
  | false => simp [not_declared]
  | true => simp [train_declared]

theorem defines_iff (name : String) (feed : Kernel) (train : Option Kernel) (x : Export p) :
    Defines (sourceText name (headerName name) feed train x) x (trainHead p name)
      trainArguments ↔ train.isSome = true := by
  rw [sourceText_parts]
  cases train with
  | none =>
    simp only [optionalText, feedWrapper_eq, String.append_empty, Option.isSome_none,
      Bool.false_eq_true, iff_false]
    rintro ⟨front, entryPoint, h⟩
    exact not_defined h.symm
  | some train =>
    simp only [Option.isSome_some, iff_true]
    exact ⟨_, train.entryPoint, rfl⟩

theorem holds_iff {name : String} {feed : Kernel} (hname : '\n' ∉ name.toList)
    (hfeed : Silent feed (trainHead p name)) (train : Option Kernel) (x : Export p) :
    Holds (sourceText name (headerName name) feed train x) (trainHead p name) ↔
      train.isSome = true := by
  cases train with
  | none => simp [not_holds_source hname hfeed]
  | some train =>
    obtain ⟨before, between, behind, h⟩ := train_wraps name feed train x
    simp only [Option.isSome_some, iff_true]
    rw [h]
    refine ⟨(before ++ line ("static " ++ train.text) ++ between).toList,
      (" \x7b\n" ++ line ("    " ++ train.entryPoint ++ trainArguments) ++ "\x7d\n\n" ++
        behind).toList, ?_⟩
    simp [function, line]

theorem source_includes (name : String) (feed : Kernel) (train : Option Kernel) (x : Export p) :
    ∃ rest, sourceText name (headerName name) feed train x =
      line ("#include \"" ++ name ++ ".h\"") ++ rest := by
  simp only [sourceText_parts, preamble, String.append_assoc]
  exact ⟨_, rfl⟩

/-- Without the training pass nothing is asked about the training kernels. -/
theorem files_constOnly (name token : String) (x : Export p) (train : List Kernel) :
    files name token true { x with train } = files name token true x := by
  rcases x with ⟨feed, others, memory, outputs⟩
  cases feed with
  | nil => rfl
  | cons feed rest => rfl

theorem agrees (name : String) (constOnly : Bool) (x : Export p) (feed : Kernel) :
    Agrees name constOnly x feed
      (sourceText name (headerName name) feed (exportedTrain constOnly x) x)
      (headerBody name x (exportedTrain constOnly x).isSome) := by
  have hexported := isSome_exportedTrain constOnly x
  constructor
  case includes => exact source_includes name feed _ x
  case feedDeclared => exact feed_declared name x _
  case feedDefined => exact feed_wraps name feed _ x
  case trainDeclared => exact (declares_iff name x _).trans hexported
  case trainDefined => exact (defines_iff name feed _ x).trans hexported
  case trainHolds => exact fun hname hfeed => (holds_iff hname hfeed _ x).trans hexported
  case trainWraps =>
    intro train rest hconst htrain
    have hsome : exportedTrain constOnly x = some train := by simp [exportedTrain, hconst, htrain]
    rw [hsome]
    exact train_wraps name feed train x
  case ends => exact ⟨_, sourceText_parts name feed _ x⟩
  case memoryCounted => exact counted (by decide) (declaredSize_memory name x _)
  case outputsCounted => exact counted (by decide) (declaredSize_outputs name x _)

/-- There is a pair exactly if there is a forward kernel. It has two names, its source and header do
not depend on the guard beyond the lines that name it, and they agree with each other. Without the
training pass the training kernels do not matter at all. -/
theorem standalone_pair_agrees (name : String) (constOnly : Bool) (x : Export p) :
    name ++ ".c" ≠ name ++ ".h" ∧
      (∀ token, files name token constOnly x = [] ↔ x.feed = []) ∧
      (∀ token train, files name token true { x with train } = files name token true x) ∧
      ∀ feed rest, x.feed = feed :: rest → ∃ source body,
        (∀ token, files name token constOnly x =
          [(name ++ ".c", source), (name ++ ".h", guarded token body)]) ∧
        Agrees name constOnly x feed source body := by
  refine ⟨by simp, fun token => ?_, fun token => files_constOnly name token x,
    fun feed rest hfeed => ?_⟩
  · cases hfeed : x.feed with
    | nil => simp [files, hfeed]
    | cons feed rest => simp [files_cons hfeed]
  · exact ⟨_, _, fun token => files_cons hfeed name token constOnly, agrees name constOnly x feed⟩

/-- One kernel for each pass, and one value. -/
def twoKernels : Export .single where
  feed := [⟨.feed, "feed_0", "kernel void feed_0() \x7b\n\x7d\n", 0, none⟩]
  train := [⟨.train, "train_0", "kernel void train_0() \x7b\n\x7d\n", 0, none⟩]
  memory := [Value.zero]
  outputs := []

/-- The functions of the pair, as C has them. -/
theorem pair_of_two_kernels : ∃ feed train source body,
    twoKernels.feed = [feed] ∧ twoKernels.train = [train] ∧
      Agrees "net" false twoKernels feed source body ∧ Silent feed (trainHead .single "net") ∧
      Holds body (line (trainHead .single "net" ++ ";")) ∧
      Defines source twoKernels (trainHead .single "net") trainArguments ∧
      Holds body "void netFeed(const float *input);\n" ∧
      Holds body "void netTrain(const float rate, const float *target);\n" ∧
      Wraps source "void netFeed(const float *input)" "(input, kOutputs, kMemory);" feed ∧
      Wraps source "void netTrain(const float rate, const float *target)"
        "(&rate, target, kMemory);" train := by
  obtain ⟨-, -, -, hpair⟩ := standalone_pair_agrees "net" false twoKernels
  obtain ⟨source, body, -, hagrees⟩ := hpair _ [] rfl
  have htrain : false = false ∧ twoKernels.train ≠ [] := ⟨rfl, List.cons_ne_nil _ _⟩
  have hdeclared := hagrees.trainDeclared.mpr htrain
  refine ⟨_, _, source, body, rfl, rfl, hagrees, ⟨?_, ?_⟩, hdeclared,
    hagrees.trainDefined.mpr htrain, hagrees.feedDeclared, hdeclared, hagrees.feedDefined,
    hagrees.trainWraps _ [] rfl rfl⟩
  · exact not_holds_of_not_mem '*' (by decide) (by decide)
  · exact not_holds_of_not_mem '*' (by decide) (by decide)

end NeuronKernels.StandalonePair
