import Conformance.Toolchain.Invocation
import Conformance.Proofs.Path.Components
import Conformance.Proofs.Text.Words

/-!
# Invocations are read back from their display

An invocation is shown as a line and read from the words of a line.  A line that has words is shown
again with single spaces between them; an invocation whose program is a text is read back from its
display exactly if its program and its arguments are words themselves (`parse?_display_same_iff`),
also where programs count as paths: a text has the characters of the components that it has as a
path, but for separators and dots, so it cannot lose a blank and stay the same path
(`Path.mem_iff_of_same`).  A program that is no text is not read from any line.
-/

namespace Conformance

namespace Invocation

/-- The program is a text, and the program and the arguments are words. -/
def Writable (i : Invocation) : Prop :=
  i.program.IsText ∧ i.program.shown.IsWord ∧ ∀ w ∈ i.args, w.IsWord

instance (i : Invocation) : Decidable i.Writable := inferInstanceAs (Decidable (_ ∧ _))

theorem words_display (i : Invocation) :
    i.display.words = i.program.shown.words ++ i.args.flatMap Text.words :=
  Text.words_join _

/-- An invocation of words is read back from its display. -/
theorem parse?_display {i : Invocation} (h : i.Writable) : parse? i.display = some i := by
  obtain ⟨htext, hprogram, hargs⟩ := h
  rw [parse?, words_display, Text.words_of_isWord hprogram, Text.flatMap_words hargs]
  exact congrArg (fun program => some (Invocation.mk program i.args)) htext

theorem same_self (i : Invocation) : i.same i = true := by simp [same, Path.same]

/-- **Words only.** An invocation whose program is a text is read back from its display exactly if
its program and its arguments are words: what is read in the place of an empty argument or of one
with blanks has another number of arguments or another path as its program. -/
theorem parse?_display_same_iff {i : Invocation} (htext : i.program.IsText) :
    (∃ j, parse? i.display = some j ∧ j.same i = true) ↔ i.Writable := by
  constructor
  · rintro ⟨j, hread, hsame⟩
    unfold parse? at hread
    split at hread
    · exact absurd hread.symm (Option.some_ne_none j)
    · next program args hwords =>
      obtain rfl := Option.some.inj hread
      rw [same, Bool.and_eq_true, beq_iff_eq] at hsame
      obtain ⟨hprogram, rfl⟩ := hsame
      have hall : ∀ w ∈ program :: i.args, Text.IsWord w := hwords ▸ Text.isWord_of_mem_words
      obtain ⟨hword, hargs⟩ := List.forall_mem_cons.mp hall
      -- the arguments are their own words, so one word is left for the program
      rw [words_display, Text.flatMap_words hargs] at hwords
      have hone : i.program.shown.words = [program] := List.append_cancel_right hwords
      refine ⟨htext, ⟨fun hnil => ?_, fun c hc => ?_⟩, hargs⟩
      · rw [hnil, Text.words_nil] at hone
        exact List.cons_ne_nil _ _ hone.symm
      · by_contra hblank
        have hslash : c ≠ '/' := by
          rintro rfl
          exact hblank (by decide)
        have hdot : c ≠ '.' := by
          rintro rfl
          exact hblank (by decide)
        rw [← htext] at hprogram
        exact hblank (hword.2 c ((Path.mem_iff_of_same hprogram hslash hdot).mpr hc))
  · intro h
    exact ⟨i, parse?_display h, same_self i⟩

/-! ## Building -/

/-- A step of building: one more argument, or several. -/
inductive Addition
  | arg (word : Text)
  | args (words : List Text)
  deriving DecidableEq, Repr

/-- The arguments that a step adds. -/
def Addition.words : Addition → List Text
  | arg word => [word]
  | args words => words

/-- The invocation after one step. -/
def extend (i : Invocation) : Addition → Invocation
  | .arg word => i.withArg word
  | .args words => i.withArgs words

/-- A program with what the steps add. -/
def built (program : Text) (steps : List Addition) : Invocation :=
  steps.foldl extend (ofProgram program)

theorem extend_eq (i : Invocation) (step : Addition) : i.extend step = i.withArgs step.words := by
  cases step <;> rfl

theorem foldl_extend (i : Invocation) (steps : List Addition) :
    steps.foldl extend i = i.withArgs (steps.flatMap Addition.words) := by
  induction steps generalizing i with
  | nil => simp [withArgs]
  | cons step rest ih =>
    rw [List.foldl_cons, ih, extend_eq, List.flatMap_cons]
    simp [withArgs]

theorem program_built (program : Text) (steps : List Addition) :
    (built program steps).program = .ofText program := by
  rw [built, foldl_extend]
  rfl

theorem isText_built (program : Text) (steps : List Addition) :
    (built program steps).program.IsText := by
  rw [program_built]
  exact Path.isText_ofText program

/-- Steps that add words to a word build what can be written. -/
theorem writable_built_iff {program : Text} {steps : List Addition} :
    (built program steps).Writable ↔
      program.IsWord ∧ ∀ step ∈ steps, ∀ word ∈ step.words, word.IsWord := by
  have hargs : (built program steps).args = steps.flatMap Addition.words := by
    rw [built, foldl_extend]
    exact List.nil_append _
  rw [Writable, and_iff_right (isText_built program steps), hargs, program_built, Path.shown_ofText]
  simp only [List.mem_flatMap, forall_exists_index, and_imp]
  exact and_congr_right' ⟨fun h step hstep word hword => h word step hstep hword,
    fun h word step hstep hword => h step hstep word hword⟩

/-- **Reading and showing.** A line is no invocation exactly if it is blank.  Any other line is read
as words only, shown with the blanks at both ends gone and one space for each run of the others, and
read as the same invocation again.  Whatever is built from a program and added arguments is read
back from its display, as written or as one that runs the same command, exactly if the program and
every argument are words. -/
theorem parse?_display_inverse :
    (∀ line : Text,
      if line.all isBlank then parse? line = none
      else ∃ i, parse? line = some i ∧ i.program.shown.IsWord ∧ (∀ arg ∈ i.args, arg.IsWord) ∧
        i.display = line.trimmed.squeezed ∧ parse? i.display = some i) ∧
    ∀ (program : Text) (steps : List Addition),
      ((∃ j, parse? (built program steps).display = some j ∧
          j.same (built program steps) = true) ↔
        program.IsWord ∧ ∀ step ∈ steps, ∀ arg ∈ step.words, arg.IsWord) ∧
      (parse? (built program steps).display = some (built program steps) ↔
        program.IsWord ∧ ∀ step ∈ steps, ∀ arg ∈ step.words, arg.IsWord) := by
  refine ⟨fun line => ?_, fun program steps => ?_⟩
  · split
    · next hblank => rw [parse?, Text.words_eq_nil_iff.mpr (List.all_eq_true.mp hblank)]
    · next hblank =>
      have hall := Text.isWord_of_mem_words (t := line)
      have hjoin := Text.join_words line
      cases hwords : line.words with
      | nil => exact absurd (List.all_eq_true.mpr (Text.words_eq_nil_iff.mp hwords)) hblank
      | cons program args =>
        rw [hwords] at hall hjoin
        obtain ⟨hprogram, hargs⟩ := List.forall_mem_cons.mp hall
        have hshown : (Path.ofText program).shown = program := Path.shown_ofText program
        refine ⟨⟨.ofText program, args⟩, by rw [parse?, hwords], hshown.symm ▸ hprogram, hargs, ?_,
          parse?_display ⟨Path.isText_ofText program, hshown.symm ▸ hprogram, hargs⟩⟩
        rw [display, hshown, hjoin]
  · rw [← writable_built_iff]
    have hiff := parse?_display_same_iff (isText_built program steps)
    exact ⟨hiff, fun hread => hiff.mp ⟨_, hread, same_self _⟩, parse?_display⟩

end Invocation

end Conformance
