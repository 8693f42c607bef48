import Conformance.Capture
import Conformance.Proofs.Text.Lines
import Conformance.Proofs.Text.Marker

/-!
# Masking and lines

No marker holds a break, and the placeholder holds none, so masking a text is masking each of its
lines and keeping every terminator (`Terminated.masked`, `Terminated.written_masked`).  It follows
that the lines of a masked text are the masked lines of the text (`lines_mask`).
-/

namespace Conformance

namespace Text

/-! ## Masking around a break -/

theorem isBreak_ne_hash {c : Char} (h : isBreak c = true) : c ≠ '#' := by
  rintro rfl
  exact absurd h (by decide)

theorem isDigit_of_isBreak {c : Char} (h : isBreak c = true) : c.isDigit = false := by
  unfold isBreak at h
  simp only [Bool.or_eq_true, beq_iff_eq, or_assoc] at h
  rcases h with rfl | rfl | rfl | rfl | rfl | rfl | rfl | rfl | rfl | rfl <;> rfl

/-- No number goes on into a break unit. -/
theorem startsWithDigit_unit {u : Text} (hu : BreakUnit u) (r : Text) :
    startsWithDigit (u ++ r) = false := by
  cases hu with
  | pair => rfl
  | single h => exact isDigit_of_isBreak h

/-- Masking adds no character but those of the placeholder. -/
theorem mem_of_mem_mask {c : Char} {t : Text} (h : c ∈ mask t) : c ∈ t ∨ c ∈ placeholder := by
  induction t using markerInduction with
  | nil => exact .inl h
  | marker d v hd hv ih =>
    rw [mask_marker hd hv, List.mem_append] at h
    rcases h with h | h
    · exact .inr h
    · exact (ih h).imp_left fun hc => List.mem_cons_of_mem _ (List.mem_append_right d hc)
  | other x r hx ih =>
    rw [mask_cons hx] at h
    rcases List.mem_cons.mp h with rfl | h
    · exact .inl List.mem_cons_self
    · exact (ih h).imp_left (List.mem_cons_of_mem x)

theorem mask_eq_nil_iff {t : Text} : mask t = [] ↔ t = [] := by
  induction t using markerInduction with
  | nil => simp
  | marker d v hd hv ih => simp [mask_marker hd hv, placeholder]
  | other c r hc ih => simp [mask_cons hc]

/-! ## Masking rows -/

/-- The row with its line masked. -/
def Row.masked (row : Row) : Row := { row with line := mask row.line }

/-- A masked line is still one line. -/
theorem isBreak_mask {l : Text} (hl : ∀ c ∈ l, isBreak c = false) :
    ∀ c ∈ mask l, isBreak c = false := by
  intro c hc
  rcases mem_of_mem_mask hc with h | h
  · exact hl c h
  · have hplaceholder : ∀ c ∈ placeholder, isBreak c = false := by
      simp [placeholder, isBreak]
    exact hplaceholder c h

theorem merges_masked_iff {row next : Row} : row.masked.Merges next.masked ↔ row.Merges next := by
  unfold Row.Merges Row.masked
  rw [mask_eq_nil_iff]

/-- Masked rows are terminated as the rows are. -/
theorem Terminated.masked {rows : List Row} (h : Terminated rows) :
    Terminated (rows.map Row.masked) := by
  induction rows with
  | nil => exact h
  | cons row rows ih =>
    obtain ⟨hline, hend, hapart, hrows⟩ := terminated_cons_iff.mp h
    refine terminated_cons_iff.mpr ⟨isBreak_mask hline, ?_, ?_, ih hrows⟩
    · refine hend.imp_right fun ⟨hnil, hopen, hne⟩ => ⟨by rw [hnil]; rfl, hopen, ?_⟩
      exact fun hmask => hne (mask_eq_nil_iff.mp hmask)
    · intro next hnext hmerges
      rw [List.head?_map] at hnext
      obtain ⟨original, hhead, rfl⟩ := Option.map_eq_some_iff.mp hnext
      exact hapart original hhead (merges_masked_iff.mp hmerges)

/-- Masking a text masks its rows. -/
theorem Terminated.written_masked {rows : List Row} (h : Terminated rows) :
    written (rows.map Row.masked) = mask (written rows) := by
  induction rows with
  | nil => rfl
  | cons row rows ih =>
    obtain ⟨-, hend, -, hrows⟩ := terminated_cons_iff.mp h
    rw [List.map_cons, written_cons, written_cons, ih hrows]
    show mask row.line ++ (row.terminator ++ mask (written rows)) = _
    rcases hend with hunit | ⟨rfl, hnil, -⟩
    · rw [mask_append (startsWithDigit_unit hunit _),
        mask_append_of_no_hash fun c hc => isBreak_ne_hash (hunit.isBreak_of_mem hc)]
    · rw [hnil, written_nil, mask_nil, List.append_nil, List.append_nil, List.append_nil]

/-- **Masking and lines commute.** The lines of a masked text are the masked lines of the text.  Both
texts have the same terminators, each behind a line and the same line masked.  So the lines of an
output can be masked after it was read: there are as many of them, and they are the lines of the
masked output. -/
theorem lines_mask (t : Text) :
    lines (mask t) = (lines t).map mask ∧
    (∃ rows, Terminated rows ∧ written rows = t ∧
      Terminated (rows.map Row.masked) ∧ written (rows.map Row.masked) = mask t) ∧
    ∀ (run : CapturedRun) (channel : Channel),
      (run.normalized.lines channel).length = (run.lines channel).length ∧
      (run.lines channel = lines t → run.normalized.lines channel = lines (mask t)) := by
  obtain ⟨rows, hrows, rfl⟩ := exists_terminated t
  have hlines : lines (mask (written rows)) = (lines (written rows)).map mask := by
    rw [← hrows.written_masked, hrows.masked.lines_written, hrows.lines_written, List.map_map,
      List.map_map]
    rfl
  refine ⟨hlines, ⟨rows, hrows, rfl, hrows.masked, hrows.written_masked⟩, fun run channel => ?_⟩
  rw [CapturedRun.normalized_lines]
  exact ⟨List.length_map .., fun h => by rw [h, hlines]⟩

end Text

end Conformance
