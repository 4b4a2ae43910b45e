import NeuronKernels.Proofs.KernelGroups

/-!
# Reading sealed kernels

A source text is read by taking off the opening of its kernel in front and the closing behind. What
is left is the statements, whatever they are: they may hold openings and closings themselves. So
every text is laid out as its kernel in at most one way (`Encloses.unique`), and reading finds it
(`read_of_encloses`).
-/

namespace NeuronKernels.SealedKernels
open BinaryFloat KernelLayout KernelUnit NetworkErrors TextPieces

variable {p : Precision}

/-- The text of the source is the opening of its kernel, the statements, and the closing. -/
def Encloses (p : Precision) (source : Source) (statements : String) : Prop :=
  source.text =
    signature p .openCl source.pass source.entryPoint ++ statements ++ "\x7d\n"

/-- A draft with nothing but these statements, in one chunk if there are any. -/
def inOneChunk (source : Source) (statements : String) : Draft where
  pass := source.pass
  entryPoint := source.entryPoint
  prologue := []
  body := if statements = "" then [] else [statements]
  epilogue := []
  expressions := 0

theorem Encloses.unique {source : Source} {s t : String} (hs : Encloses p source s)
    (ht : Encloses p source t) : t = s := by
  have h := ht.symm.trans hs
  rwa [String.append_left_inj, String.append_right_inj] at h

theorem read_of_encloses {source : Source} {s : String} (h : Encloses p source s) :
    Draft.read p source = .ok (inOneChunk source s) := by
  obtain ⟨pass, entryPoint, text⟩ := source
  obtain rfl : text = signature p .openCl pass entryPoint ++ s ++ "\x7d\n" := h
  have hread := Draft.ofSource_layout p pass entryPoint s
  rw [closing] at hread
  simp [Draft.read, hread, inOneChunk, Draft.start, String.isEmpty_iff]

theorem encloses_of_read {source : Source} {d : Draft} (h : Draft.read p source = .ok d) :
    ∃ s, Encloses p source s := by
  cases hs : dropStart (signature p .openCl source.pass source.entryPoint) source.text with
  | none => simp [Draft.read, Draft.ofSource, hs] at h
  | some rest =>
    cases he : dropEnd closing rest with
    | none => simp [Draft.read, Draft.ofSource, hs, he] at h
    | some s =>
      refine ⟨s, ?_⟩
      rw [Encloses, dropStart_eq_some_iff.mp hs, dropEnd_eq_some_iff.mp he, String.append_assoc,
        closing]

theorem render_inOneChunk (source : Source) (s : String) :
    (inOneChunk source s).render p .openCl =
      signature p .openCl source.pass source.entryPoint ++ s ++ "\x7d\n" := by
  have hchunk : concat (inOneChunk source s).statements = s := by
    by_cases hs : s = "" <;> simp [inOneChunk, Draft.statements, concat, hs]
  rw [KernelGroups.render_openCl, hchunk]
  rfl

theorem read_error {source : Source} (h : ∀ s, ¬Encloses p source s) :
    Draft.read p source = .error (.buildFailure (layoutDiagnostics source)) := by
  cases ho : Draft.ofSource p source with
  | none => rw [Draft.read, ho, Option.elim_none]
  | some d =>
    have hread : Draft.read p source = .ok d := by rw [Draft.read, ho, Option.elim_some]
    obtain ⟨s, hs⟩ := encloses_of_read hread
    exact absurd hs (h s)

theorem encloses_toKernel (d : Draft) : Encloses p (d.toKernel p).source (concat d.statements) :=
  KernelGroups.render_openCl d

/-- Reading is the inverse of writing in the first dialect. A text is read exactly when it encloses
statements, and then these are the only ones; what is read has them as its one chunk and is written
as the same text. Every other text is refused. Every draft, however it was filled, is sealed as a
text that encloses its statements. -/
theorem read_inverts_render (p : Precision) :
    (∀ source, (∃ d, Draft.read p source = .ok d) ↔ ∃ s, Encloses p source s) ∧
    (∀ source s, Encloses p source s →
      (∀ t, Encloses p source t → t = s) ∧
      Draft.read p source = .ok (inOneChunk source s) ∧
      (inOneChunk source s).render p .openCl = source.text) ∧
    (∀ source, (∀ s, ¬Encloses p source s) →
      Draft.read p source = .error (.buildFailure (layoutDiagnostics source))) ∧
    ∀ d : Draft, Encloses p (d.toKernel p).source (concat d.statements) ∧
      Draft.read p (d.toKernel p).source =
        .ok (inOneChunk (d.toKernel p).source (concat d.statements)) := by
  refine ⟨fun source => ⟨?_, ?_⟩, fun source s h => ⟨fun t => h.unique, read_of_encloses h, ?_⟩,
    fun source => read_error, fun d => ?_⟩
  · rintro ⟨d, hd⟩
    exact encloses_of_read hd
  · rintro ⟨s, hs⟩
    exact ⟨_, read_of_encloses hs⟩
  · exact (render_inOneChunk source s).trans h.symm
  · have h := encloses_toKernel (p := p) d
    exact ⟨h, read_of_encloses h⟩

theorem feed_append_ne_train (p : Precision) (entryPoint a b : String) :
    signature p .openCl .feed entryPoint ++ a ≠ signature p .openCl .train entryPoint ++ b := by
  intro h
  have hchars := congrArg String.toList h
  simp only [signature_openCl, passArguments_feed, passArguments_train, String.toList_append,
    List.append_assoc, List.append_cancel_left_eq] at hchars
  -- what is left begins with the name of the first argument
  simp [inputName, rateName] at hchars

/-- Statements that look like an opening, and end like a kernel. -/
def nestedStatements : String := signature .double .openCl .feed "f" ++ "\x7d\n\x7d\n"

/-- A source of the forward pass that holds the opening and the closing twice, and the same text as
a source of the training pass. -/
theorem read_nested :
    let text := signature .double .openCl .feed "f" ++ nestedStatements ++ "\x7d\n"
    Encloses .double ⟨.feed, "f", text⟩ nestedStatements ∧
      Draft.read .double ⟨.feed, "f", text⟩ =
        .ok (inOneChunk ⟨.feed, "f", text⟩ nestedStatements) ∧
      (∀ s, ¬Encloses .double ⟨.train, "f", text⟩ s) ∧
      Draft.read .double ⟨.train, "f", text⟩ = .error (.buildFailure
        "kernel `f` does not have the generated train layout") := by
  intro text
  obtain ⟨-, found, refused, -⟩ := read_inverts_render .double
  have enclosed : Encloses .double ⟨.feed, "f", text⟩ nestedStatements := rfl
  have foreign : ∀ s, ¬Encloses .double ⟨.train, "f", text⟩ s := by
    intro s hs
    refine feed_append_ne_train .double "f" (nestedStatements ++ "\x7d\n") (s ++ "\x7d\n") ?_
    rw [← String.append_assoc, ← String.append_assoc]
    exact hs
  exact ⟨enclosed, (found _ _ enclosed).2.1, foreign, refused _ foreign⟩

end NeuronKernels.SealedKernels
