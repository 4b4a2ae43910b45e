import NeuronKernels.KernelNetwork
import NeuronKernels.Proofs.SealedKernels

/-!
# Layouts are unambiguous

The opening of a kernel has its entry point in front of the first parenthesis and the arguments of
its pass behind it. So two openings that begin the same text are those of one entry point, unless a
parenthesis is in its name, and of one pass (`signature_injective`). A text that is laid out as one
kernel is therefore refused in the place of every other one (`lower_misfiled`), and with it every
program that has it as a source (`lowerProgram_refused`).
-/

namespace NeuronKernels.UnambiguousLayouts
open BinaryFloat KernelLayout KernelNetwork KernelUnit NetworkErrors SealedKernels StoredNetwork
open TextPieces

variable {p : Precision} {δ : Type}

/-- The stored kernels of a pass. -/
def filed (r : NetworkRecord) : Pass → List KernelRecord
  | .feed => r.feed
  | .train => r.train

/-- A stored kernel that was sealed for the other pass, or with the entry point of another kernel,
with any statements in it. -/
inductive Misfiled (p : Precision) (pass : Pass) (k : KernelRecord) : Prop
  | otherPass (owner : Pass) (statements : String) (different : owner ≠ pass)
      (sealed : Encloses p ⟨owner, k.entryPoint, k.text⟩ statements)
  | otherKernel (owner : Pass) (entryPoint statements : String)
      (different : entryPoint ≠ k.entryPoint) (plain : '(' ∉ entryPoint.toList)
      (plain' : '(' ∉ k.entryPoint.toList)
      (sealed : Encloses p ⟨owner, entryPoint, k.text⟩ statements)

/-- What stands in front of the first mark of a text is determined, and so is what stands behind. -/
theorem eq_of_append_mark {mark : Char} {front front' rest rest' : List Char} (h : mark ∉ front)
    (h' : mark ∉ front') (same : front ++ mark :: rest = front' ++ mark :: rest') :
    front = front' ∧ rest = rest' := by
  have pieces : [front] ++ splitOn mark rest = [front'] ++ splitOn mark rest' := by
    rw [← splitOn_of_not_mem h, ← splitOn_of_not_mem h', ← splitOn_append, ← splitOn_append, same]
  obtain rfl := (List.cons.inj pieces).1
  exact ⟨rfl, (List.cons.inj (List.append_cancel_left same)).2⟩

/-- Openings of different passes part at the name of the first argument, whatever stands behind. -/
theorem pass_of_signature {pass pass' : Pass} {entryPoint a b : String}
    (same : signature p .openCl pass entryPoint ++ a = signature p .openCl pass' entryPoint ++ b) :
    pass = pass' := by
  cases pass <;> cases pass'
  · rfl
  · exact absurd same (feed_append_ne_train p entryPoint a b)
  · exact absurd same.symm (feed_append_ne_train p entryPoint b a)
  · rfl

theorem signature_injective {pass pass' : Pass} {entryPoint entryPoint' a b : String}
    (plain : '(' ∉ entryPoint.toList) (plain' : '(' ∉ entryPoint'.toList)
    (same : signature p .openCl pass entryPoint ++ a = signature p .openCl pass' entryPoint' ++ b) :
    pass = pass' ∧ entryPoint = entryPoint' := by
  have chars := congrArg String.toList same
  simp only [signature_openCl, String.toList_append, List.append_assoc,
    List.append_cancel_left_eq] at chars
  have mark : "(".toList = ['('] := rfl
  rw [mark, List.singleton_append, List.singleton_append] at chars
  obtain rfl := String.ext (eq_of_append_mark plain plain' chars).1
  exact ⟨pass_of_signature same, rfl⟩

theorem signatures_of_encloses {pass pass' : Pass} {entryPoint entryPoint' text s s' : String}
    (h : Encloses p ⟨pass, entryPoint, text⟩ s) (h' : Encloses p ⟨pass', entryPoint', text⟩ s') :
    signature p .openCl pass entryPoint ++ (s ++ closing) =
      signature p .openCl pass' entryPoint' ++ (s' ++ closing) := by
  rw [← String.append_assoc, ← String.append_assoc]
  exact h.symm.trans h'

/-- A text is laid out as a kernel with one entry point for one pass only. -/
theorem pass_eq_of_encloses {pass pass' : Pass} {entryPoint text s s' : String}
    (h : Encloses p ⟨pass, entryPoint, text⟩ s) (h' : Encloses p ⟨pass', entryPoint, text⟩ s') :
    pass = pass' :=
  pass_of_signature (signatures_of_encloses h h')

theorem owner_eq_of_encloses {pass pass' : Pass} {entryPoint entryPoint' text s s' : String}
    (h : Encloses p ⟨pass, entryPoint, text⟩ s) (h' : Encloses p ⟨pass', entryPoint', text⟩ s')
    (plain : '(' ∉ entryPoint.toList) (plain' : '(' ∉ entryPoint'.toList) :
    pass = pass' ∧ entryPoint = entryPoint' :=
  signature_injective plain plain' (signatures_of_encloses h h')

theorem not_encloses_of_misfiled {pass : Pass} {k : KernelRecord} (h : Misfiled p pass k)
    (statements : String) : ¬Encloses p (k.toKernel pass).source statements := by
  intro here
  cases h with
  | otherPass owner _ different there => exact different (pass_eq_of_encloses there here)
  | otherKernel owner entryPoint _ different plain plain' there =>
    exact different (owner_eq_of_encloses there here plain plain').2

theorem lower_misfiled {pass : Pass} {k : KernelRecord} (h : Misfiled p pass k) :
    lower p (k.toKernel pass).source =
      .error (.buildFailure (layoutDiagnostics (k.toKernel pass).source)) := by
  rw [lower, read_error (not_encloses_of_misfiled h), Except.map]

theorem lower_error {source : Source} {e : NetworkError} (h : lower p source = .error e) :
    e = .buildFailure (layoutDiagnostics source) := by
  cases read : Draft.ofSource p source with
  | none =>
    rw [lower, Draft.read, read, Option.elim_none, Except.map] at h
    exact (Except.error.inj h).symm
  | some d =>
    rw [lower, Draft.read, read, Option.elim_some, Except.map] at h
    cases h

/-- A row of steps of which one fails comes to the failure of the first one that does. -/
theorem mapM_error {α β ε : Type} {f : α → Except ε β} {items : List α} {item : α} {e : ε}
    (mem : item ∈ items) (fails : f item = .error e) :
    ∃ first ∈ items, ∃ e, f first = .error e ∧ items.mapM f = .error e := by
  induction items with
  | nil => cases mem
  | cons head rest ih =>
    cases step : f head with
    | error e' => exact ⟨head, List.mem_cons_self, e', step, by rw [List.mapM_cons, step]; rfl⟩
    | ok b =>
      obtain rfl | later := List.mem_cons.mp mem
      · cases step.symm.trans fails
      · obtain ⟨first, mem', e', fails', row⟩ := ih later
        refine ⟨first, List.mem_cons_of_mem _ mem', e', fails', ?_⟩
        rw [List.mapM_cons, step, row]
        rfl

/-- A program with a source that is refused is refused, for that source or for an earlier one. -/
theorem lowerProgram_refused {sources : List Source} {source : Source} {e : NetworkError}
    (mem : source ∈ sources) (refused : lower p source = .error e) :
    ∃ first ∈ sources,
      lowerProgram p sources = .error (.buildFailure (layoutDiagnostics first)) := by
  obtain ⟨first, mem', e', fails, row⟩ := mapM_error mem refused
  obtain rfl := lower_error fails
  exact ⟨first, mem', by rw [lowerProgram, row, Except.map]⟩

theorem kernelsOf_loadRecord (n : Network p δ) (r : NetworkRecord) (pass : Pass) :
    (n.loadRecord r).kernelsOf pass = (filed r pass).map fun k => k.toKernel pass := by
  cases pass <;> rfl

/-- A text is read as the kernel of one pass and one entry point only, as long as no parenthesis is
in the name of an entry point. So a kernel that is stored with those of the other pass, or under the
entry point of another kernel, is refused after loading, whatever its statements are, and the
program of the network cannot be lowered. -/
theorem layouts_unambiguous (p : Precision) :
    (∀ pass pass' entryPoint entryPoint' text d d',
      '(' ∉ entryPoint.toList → '(' ∉ entryPoint'.toList →
      Draft.read p ⟨pass, entryPoint, text⟩ = .ok d →
      Draft.read p ⟨pass', entryPoint', text⟩ = .ok d' →
      pass = pass' ∧ entryPoint = entryPoint') ∧
    ∀ (n : Network p δ) (r : NetworkRecord) (pass : Pass), ∀ k ∈ filed r pass, Misfiled p pass k →
      k.toKernel pass ∈ (n.loadRecord r).kernelsOf pass ∧
      lower p (k.toKernel pass).source =
        .error (.buildFailure (layoutDiagnostics (k.toKernel pass).source)) ∧
      ∃ first ∈ (n.loadRecord r).kernels,
        lowerProgram p ((n.loadRecord r).kernels.map Kernel.source) =
          .error (.buildFailure (layoutDiagnostics first.source)) := by
  constructor
  · intro pass pass' entryPoint entryPoint' text d d' plain plain' read read'
    obtain ⟨s, here⟩ := encloses_of_read read
    obtain ⟨s', there⟩ := encloses_of_read read'
    exact owner_eq_of_encloses here there plain plain'
  · intro n r pass k mem misfiled
    have loaded : k.toKernel pass ∈ (n.loadRecord r).kernelsOf pass := by
      rw [kernelsOf_loadRecord]
      exact List.mem_map_of_mem mem
    have refused := lower_misfiled misfiled
    have inProgram : (k.toKernel pass).source ∈ (n.loadRecord r).kernels.map Kernel.source := by
      refine List.mem_map_of_mem ?_
      cases pass
      · exact List.mem_append_left _ loaded
      · exact List.mem_append_right _ loaded
    obtain ⟨_, there, failed⟩ := lowerProgram_refused inProgram refused
    obtain ⟨first, mem', rfl⟩ := List.mem_map.mp there
    exact ⟨loaded, refused, first, mem', failed⟩

/-- A kernel whose entry point begins with that of another one, and whose statements begin with the
opening of the other one. -/
def longerName : String :=
  signature .double .openCl .feed "feed_10" ++ signature .double .openCl .feed "feed_1" ++ "\x7d\n"

/-- The longer name is filed under the shorter one, and a kernel of the forward pass is filed with
those of the training pass. -/
def mixedRecord : NetworkRecord where
  feed := [⟨1, "feed_1", longerName⟩]
  train := [⟨0, "feed_0", signature .double .openCl .feed "feed_0" ++ "\x7d\n"⟩]

theorem mixedRecord_refused :
    let n : Network .double ComputeDevice.Portable := .ofRecord MemoryArena.Arena.empty mixedRecord
    (∀ pass entryPoint d, '(' ∉ entryPoint.toList →
      Draft.read .double ⟨pass, entryPoint, longerName⟩ = .ok d →
      pass = .feed ∧ entryPoint = "feed_10") ∧
    lower .double ⟨.feed, "feed_1", longerName⟩ = .error (.buildFailure
      "kernel `feed_1` does not have the generated feed layout") ∧
    lower .double ⟨.train, "feed_0", signature .double .openCl .feed "feed_0" ++ "\x7d\n"⟩ =
      .error (.buildFailure "kernel `feed_0` does not have the generated train layout") ∧
    ∃ first ∈ n.kernels, lowerProgram .double (n.kernels.map Kernel.source) =
      .error (.buildFailure (layoutDiagnostics first.source)) := by
  intro n
  obtain ⟨one_reading, refused⟩ :=
    layouts_unambiguous (δ := ComputeDevice.Portable) .double
  have whole : Encloses .double ⟨.feed, "feed_10", longerName⟩
      (signature .double .openCl .feed "feed_1") := rfl
  have shorter : Misfiled .double .feed ⟨1, "feed_1", longerName⟩ :=
    .otherKernel .feed "feed_10" _ (by decide) (by decide) (by decide) whole
  have crossed : Misfiled .double .train
      ⟨0, "feed_0", signature .double .openCl .feed "feed_0" ++ "\x7d\n"⟩ :=
    .otherPass .feed "" (by decide) rfl
  have filedFirst := refused (.ofArena MemoryArena.Arena.empty) mixedRecord .feed _
    (List.mem_singleton.mpr rfl) shorter
  have filedSecond := refused (.ofArena MemoryArena.Arena.empty) mixedRecord .train _
    (List.mem_singleton.mpr rfl) crossed
  refine ⟨fun pass entryPoint d plain read => ?_, filedFirst.2.1, filedSecond.2.1,
    filedFirst.2.2⟩
  exact one_reading pass .feed entryPoint "feed_10" longerName d _ plain (by decide) read
    (read_of_encloses whole)

/-- With a parenthesis in the name of its entry point a text can be laid out as two kernels. -/
example :
    let long := "f(" ++ passArguments "double" .feed ++ ", global double *x) \x7b\nvoid kernel g"
    let text := signature .double .openCl .feed long ++ "\x7d\n"
    Encloses .double ⟨.feed, long, text⟩ "" ∧
      Encloses .double ⟨.feed, "f", text⟩ (signature .double .openCl .feed "g") :=
  ⟨rfl, rfl⟩

end NeuronKernels.UnambiguousLayouts
