import NeuronKernels.Proofs.KernelLowering
import Mathlib.Data.List.Chain

/-!
# The words of a text

A text is cut into words, each as long as it can be, and single characters between them. There is
one such cut of every text (`Cuts.eq_cut`), and the second dialect spells the words of the cut one
by one and leaves the rest in place (`Cuts.respell`). What it writes is cut at the same places, so
the reserved word is gone from it.
-/

namespace NeuronKernels.WordPieces
open KernelLayout KernelLowering TextPieces

/-- A letter, a digit or the underscore, all of ASCII. -/
def WordChar (c : Char) : Prop :=
  ('A' ≤ c ∧ c ≤ 'Z') ∨ ('a' ≤ c ∧ c ≤ 'z') ∨ ('0' ≤ c ∧ c ≤ '9') ∨ c = '_'

theorem isWordChar_iff {c : Char} : isWordChar c = true ↔ WordChar c := by
  simp only [isWordChar, isDigit, isAsciiLetter, WordChar, Char.le_def, UInt32.le_iff_toNat_le,
    Bool.or_eq_true, Bool.and_eq_true, decide_eq_true_eq, beq_iff_eq]
  simp only [Char.toNat, Char.reduceVal, UInt32.reduceToNat]
  tauto

instance (c : Char) : Decidable (WordChar c) := decidable_of_iff _ isWordChar_iff

theorem not_isWordChar_iff {c : Char} : isWordChar c = false ↔ ¬WordChar c := by
  rw [← isWordChar_iff, Bool.not_eq_true]

/-- A word, or a character that belongs to no word. -/
inductive Piece
  | word (letters : List Char)
  | mark (c : Char)
  deriving DecidableEq

namespace Piece

def text : Piece → List Char
  | .word letters => letters
  | .mark c => [c]

/-- Words consist of word characters, at least one, and a mark is none. -/
def Sound : Piece → Prop
  | .word letters => letters ≠ [] ∧ ∀ c ∈ letters, WordChar c
  | .mark c => ¬WordChar c

/-- Two pieces that are not both words. -/
def Apart : Piece → Piece → Prop
  | .word _, .word _ => False
  | _, _ => True

/-- The piece with the reserved word in its other spelling. -/
def respelled : Piece → Piece
  | .word letters =>
    .word (if letters = "target".toList then "target_values".toList else letters)
  | .mark c => .mark c

theorem sound_respelled {q : Piece} (h : q.Sound) : q.respelled.Sound := by
  cases q with
  | mark c => exact h
  | word letters =>
    by_cases ht : letters = "target".toList
    · simp only [respelled, ht, if_true, Sound]
      have hwords : "target_values".toList.all isWordChar = true := by decide
      exact ⟨by decide, fun c hc => isWordChar_iff.mp (List.all_eq_true.mp hwords c hc)⟩
    · simpa only [respelled, ht, if_false] using h

theorem apart_respelled_iff {q r : Piece} : Apart q.respelled r.respelled ↔ Apart q r := by
  cases q <;> cases r <;> rfl

theorem apart_word_iff {letters other : List Char} {q : Piece} :
    Apart (.word letters) q ↔ Apart (.word other) q := by
  cases q <;> rfl

theorem respelled_ne (q : Piece) : q.respelled ≠ .word "target".toList := by
  cases q with
  | mark c => simp [respelled]
  | word letters =>
    by_cases ht : letters = "target".toList
    · simp only [respelled, ht, if_true]
      decide
    · simpa only [respelled, ht, if_false, ne_eq, word.injEq] using ht

theorem respelled_of_ne {q : Piece} (h : q ≠ .word "target".toList) : q.respelled = q := by
  cases q with
  | mark c => rfl
  | word letters =>
    have ht : letters ≠ "target".toList := fun ht => h (congrArg word ht)
    rw [respelled, if_neg ht]

end Piece

open Piece

/-- The pieces make up the text, and no word goes on in the next piece: each is as long as it can
be. -/
structure Cuts (pieces : List Piece) (text : List Char) : Prop where
  joined : pieces.flatMap Piece.text = text
  sound : ∀ q ∈ pieces, q.Sound
  longest : pieces.IsChain Apart

theorem Cuts.tail {q : Piece} {rest : List Piece} {text : List Char} (h : Cuts (q :: rest) text) :
    Cuts rest (rest.flatMap Piece.text) :=
  ⟨rfl, fun r hr => h.sound r (by simp [hr]), (List.isChain_cons.mp h.longest).2⟩

theorem Cuts.map_respelled {pieces : List Piece} {text : List Char} (h : Cuts pieces text) :
    Cuts (pieces.map respelled) ((pieces.map respelled).flatMap Piece.text) where
  joined := rfl
  sound := by
    intro q hq
    obtain ⟨r, hr, rfl⟩ := List.mem_map.mp hq
    exact sound_respelled (h.sound r hr)
  longest := by
    rw [List.isChain_map]
    exact h.longest.imp fun _ _ => apart_respelled_iff.mpr

/-- Behind a word there is the end of the text or a character that belongs to no word. -/
theorem Cuts.behind_word {letters : List Char} {rest : List Piece} {text : List Char}
    (h : Cuts (.word letters :: rest) text) :
    ∀ c ∈ (rest.flatMap Piece.text).head?, ¬WordChar c := by
  cases rest with
  | nil => simp
  | cons r rest =>
    have hr : r.Sound := h.sound r (by simp)
    have ha : Apart (.word letters) r := (List.isChain_cons_cons.mp h.longest).1
    cases r with
    | word letters' => exact ha.elim
    | mark c =>
      intro d hd
      obtain rfl : c = d := by simpa [Piece.text] using hd
      exact hr

/-- Pieces with a letter in front, which joins a word that stands first. -/
def addLetter (c : Char) : List Piece → List Piece
  | .word letters :: rest => .word (c :: letters) :: rest
  | pieces => .word [c] :: pieces

/-- The pieces of a text. -/
def cut : List Char → List Piece
  | [] => []
  | c :: cs => if isWordChar c then addLetter c (cut cs) else .mark c :: cut cs

theorem cuts_addLetter {c : Char} (hc : WordChar c) {pieces : List Piece} {text : List Char}
    (h : Cuts pieces text) : Cuts (addLetter c pieces) (c :: text) := by
  obtain ⟨rfl, sound, longest⟩ := h
  have alone : ∀ d ∈ [c], WordChar d := by simpa using hc
  match pieces with
  | [] => exact ⟨rfl, by simpa [addLetter, Sound] using hc, .singleton _⟩
  | .mark d :: rest =>
    refine ⟨rfl, ?_, List.isChain_cons_cons.mpr ⟨trivial, longest⟩⟩
    intro q hq
    rcases List.mem_cons.mp hq with rfl | hq
    · exact ⟨List.cons_ne_nil c [], alone⟩
    · exact sound q hq
  | .word letters :: rest =>
    refine ⟨rfl, ?_, ?_⟩
    · intro q hq
      rcases List.mem_cons.mp hq with rfl | hq
      · refine ⟨List.cons_ne_nil c letters, ?_⟩
        simpa using ⟨hc, (sound (.word letters) (by simp)).2⟩
      · exact sound q (by simp [hq])
    · -- only whether the first piece is a word counts
      rw [addLetter, List.isChain_cons]
      rw [List.isChain_cons] at longest
      exact ⟨fun r hr => apart_word_iff.mp (longest.1 r hr), longest.2⟩

theorem cuts_cut (text : List Char) : Cuts (cut text) text := by
  induction text with
  | nil => exact ⟨rfl, by simp [cut], .nil⟩
  | cons c cs ih =>
    by_cases hc : isWordChar c = true
    · rw [cut, if_pos hc]
      exact cuts_addLetter (isWordChar_iff.mp hc) ih
    · rw [cut, if_neg hc]
      rw [isWordChar_iff] at hc
      refine ⟨by simp [Piece.text, ih.joined], ?_, ?_⟩
      · intro q hq
        rcases List.mem_cons.mp hq with rfl | hq
        · exact hc
        · exact ih.sound q hq
      · exact List.isChain_cons.mpr ⟨fun r _ => by cases r <;> trivial, ih.longest⟩

theorem cut_word {letters : List Char} (hne : letters ≠ []) (hw : ∀ c ∈ letters, WordChar c)
    {rest : List Char} (hr : ∀ c ∈ rest.head?, ¬WordChar c) :
    cut (letters ++ rest) = .word letters :: cut rest := by
  induction letters with
  | nil => exact absurd rfl hne
  | cons c letters ih =>
    have hc : isWordChar c = true := isWordChar_iff.mpr (hw c (by simp))
    rw [List.cons_append, cut, if_pos hc]
    cases letters with
    | nil =>
      cases rest with
      | nil => rfl
      | cons d rest =>
        have hd : ¬isWordChar d = true := by
          rw [isWordChar_iff]
          exact hr d (by simp)
        rw [List.nil_append, cut, if_neg hd, addLetter]
        simp
    | cons d letters =>
      rw [ih (List.cons_ne_nil d letters) fun e he => hw e (by simp [he]), addLetter]

theorem Cuts.eq_cut {pieces : List Piece} {text : List Char} (h : Cuts pieces text) :
    pieces = cut text := by
  induction pieces generalizing text with
  | nil =>
    obtain rfl : [] = text := h.joined
    rfl
  | cons q rest ih =>
    have hrest := ih h.tail
    have hq : q.Sound := h.sound q (by simp)
    rw [← h.joined, List.flatMap_cons]
    cases q with
    | mark c =>
      have hc : ¬isWordChar c = true := isWordChar_iff.not.mpr hq
      rw [Piece.text, List.singleton_append, cut, if_neg hc, ← hrest]
    | word letters => rw [Piece.text, cut_word hq.1 hq.2 h.behind_word, ← hrest]

/-- The word that is being read ends where the second text begins. -/
theorem respellFrom_append_of_head {b : List Char} (hb : ∀ c ∈ b.head?, ¬WordChar c)
    (word a : List Char) : respellFrom word (a ++ b) = respellFrom word a ++ respell b := by
  induction a generalizing word with
  | nil =>
    cases b with
    | nil => simp [respell, respellFrom, spellWord, targetName]
    | cons c cs =>
      have hc : isWordChar c = false := not_isWordChar_iff.mpr (hb c (by simp))
      simp [respell, respellFrom, hc, spellWord, targetName]
  | cons c cs ih =>
    by_cases hc : isWordChar c = true
    · simp [respellFrom, hc, ih]
    · simp [respellFrom, hc, ih]

theorem respellFrom_word {letters : List Char} (hw : ∀ c ∈ letters, WordChar c)
    (word : List Char) : respellFrom word letters = spellWord (word.reverse ++ letters) := by
  induction letters generalizing word with
  | nil => simp [respellFrom]
  | cons c letters ih =>
    have hc : isWordChar c = true := isWordChar_iff.mpr (hw c (by simp))
    rw [respellFrom, if_pos hc, ih fun d hd => hw d (by simp [hd])]
    simp

theorem Cuts.respell {pieces : List Piece} {text : List Char} (h : Cuts pieces text) :
    respell text = (pieces.map respelled).flatMap Piece.text := by
  induction pieces generalizing text with
  | nil =>
    obtain rfl : [] = text := h.joined
    rfl
  | cons q rest ih =>
    have hrest := ih h.tail
    have hq : q.Sound := h.sound q (by simp)
    rw [← h.joined, List.flatMap_cons, List.map_cons, List.flatMap_cons, ← hrest]
    cases q with
    | mark c =>
      have hc : ¬isWordChar c = true := isWordChar_iff.not.mpr hq
      simp [Piece.text, respelled, KernelLayout.respell, respellFrom, hc, spellWord, targetName]
    | word letters =>
      have hfirst : KernelLayout.respell letters = spellWord letters := respellFrom_word hq.2 []
      calc KernelLayout.respell (letters ++ rest.flatMap Piece.text)
        _ = KernelLayout.respell letters ++ KernelLayout.respell (rest.flatMap Piece.text) :=
          respellFrom_append_of_head h.behind_word [] letters
        _ = (respelled (.word letters)).text ++ KernelLayout.respell (rest.flatMap Piece.text) := by
          rw [hfirst]
          rfl

theorem Cuts.respell_cuts {pieces : List Piece} {text : List Char} (h : Cuts pieces text) :
    Cuts (pieces.map respelled) (KernelLayout.respell text) :=
  h.respell ▸ h.map_respelled

theorem lower_of_no_target {pieces : List Piece} {text : String} (h : Cuts pieces text.toList)
    (absent : .word "target".toList ∉ pieces) : Dialect.wgsl.lower text = text := by
  have same : pieces.map respelled = pieces := by
    refine (List.map_congr_left fun q hq => ?_).trans (List.map_id pieces)
    apply respelled_of_ne
    rintro rfl
    exact absent hq
  rw [Dialect.lower, h.respell, same, h.joined, String.ofList_toList]

/-- The second dialect writes a text with each whole word that is reserved in its other spelling,
and all else in its place. So it leaves a text without that word alone, writes none, and writing a
second time changes nothing; and it writes two texts one after the other unless a word goes on from
the first one into the second. -/
theorem lower_spells_words (text : String) :
    (∃! pieces, Cuts pieces text.toList) ∧
    (∀ pieces, Cuts pieces text.toList →
      (Dialect.wgsl.lower text).toList = (pieces.map respelled).flatMap Piece.text ∧
      (.word "target".toList ∉ pieces → Dialect.wgsl.lower text = text)) ∧
    (∀ pieces, Cuts pieces (Dialect.wgsl.lower text).toList → .word "target".toList ∉ pieces) ∧
    Dialect.wgsl.lower (Dialect.wgsl.lower text) = Dialect.wgsl.lower text ∧
    ∀ other : String,
      (∀ c ∈ text.toList.getLast?, ¬WordChar c) ∨ (∀ c ∈ other.toList.head?, ¬WordChar c) →
        Dialect.wgsl.lower (text ++ other) =
          Dialect.wgsl.lower text ++ Dialect.wgsl.lower other := by
  have hcut := cuts_cut text.toList
  have hlower : (Dialect.wgsl.lower text).toList = respell text.toList := by simp [Dialect.lower]
  have gone : ∀ pieces, Cuts pieces (Dialect.wgsl.lower text).toList →
      .word "target".toList ∉ pieces := by
    intro pieces h ht
    rw [h.eq_cut, hlower, ← hcut.respell_cuts.eq_cut, List.mem_map] at ht
    obtain ⟨q, -, hq⟩ := ht
    exact respelled_ne q hq
  refine ⟨⟨_, hcut, fun pieces => Cuts.eq_cut⟩, fun pieces h => ⟨?_, lower_of_no_target h⟩, gone,
    ?_, ?_⟩
  · rw [hlower, h.respell]
  · have h := cuts_cut (Dialect.wgsl.lower text).toList
    exact lower_of_no_target h (gone _ h)
  · rintro other (hend | hhead)
    · exact lower_append .wgsl (fun c hc => not_isWordChar_iff.mpr (hend c hc)) other
    · have happ : respell (text.toList ++ other.toList) = _ :=
        respellFrom_append_of_head hhead [] text.toList
      simp only [Dialect.lower, String.toList_append, happ, String.ofList_append]
      rfl

/-- The last word of the first text ends where the second one begins. -/
theorem lower_two_texts :
    let text := "é target2 my_target étarget"
    let other := "[0] + target"
    (∀ c ∈ other.toList.head?, ¬WordChar c) ∧
      Dialect.wgsl.lower (text ++ other) =
        "é target2 my_target étarget_values[0] + target_values" := by
  intro text other
  have hhead : other.toList.head? = some '[' := by decide
  have apart : ∀ c ∈ other.toList.head?, ¬WordChar c := by
    rw [hhead]
    rintro c ⟨⟩
    decide
  obtain ⟨-, -, -, -, joined⟩ := lower_spells_words text
  refine ⟨apart, ?_⟩
  rw [joined other (.inr apart)]
  decide +kernel

end NeuronKernels.WordPieces
