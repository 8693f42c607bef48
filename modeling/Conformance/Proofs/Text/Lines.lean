import Mathlib.Data.List.Chain
import Conformance.Text.Lines

/-!
# The lines of a text with their terminators

A `Row` is a line with the terminator behind it.  Rows are `Terminated` if no line holds a break
character, each terminator is a break unit, where the last may be missing behind a line that is not
empty, and no two terminators with nothing between them run together into one.  Every text is
written in such rows (`exists_terminated`), and `lines` reads the lines of any such rows back
(`Terminated.lines_written`), so its result is the only one possible (`lines_eq_iff_terminated`).

A text is read one break unit or one other character at a time (`breakInduction`).
-/

namespace Conformance

theorem BreakUnit.isBreak_of_mem {u : Text} (hu : BreakUnit u) {c : Char} (hc : c ∈ u) :
    isBreak c = true := by
  cases hu with
  | pair =>
    rcases List.mem_pair.mp hc with rfl | rfl <;> rfl
  | single h => rwa [List.mem_singleton.mp hc]

namespace Text

/-- A line, and the terminator behind it. -/
structure Row where
  line : Text
  terminator : Text
  deriving DecidableEq, Repr

/-- The text of rows one behind the other. -/
def written (rows : List Row) : Text := rows.flatMap fun row => row.line ++ row.terminator

/-- Two rows that cannot be told from one: a carriage return, and directly behind it a line feed. -/
def Row.Merges (row next : Row) : Prop :=
  row.terminator = ['\r'] ∧ next.line = [] ∧ next.terminator = ['\n']

/-- Lines without breaks, each ended by a break unit; only the last may be left open, unless it is
empty. -/
structure Terminated (rows : List Row) : Prop where
  unbroken : ∀ row ∈ rows, ∀ c ∈ row.line, isBreak c = false
  ended : ∀ row ∈ rows.dropLast, BreakUnit row.terminator
  last : ∀ row ∈ rows.getLast?,
    BreakUnit row.terminator ∨ row.terminator = [] ∧ row.line ≠ []
  apart : rows.IsChain fun row next => ¬ row.Merges next

@[simp] theorem written_nil : written [] = [] := rfl

@[simp] theorem written_cons (row : Row) (rows : List Row) :
    written (row :: rows) = row.line ++ (row.terminator ++ written rows) := by
  rw [written, List.flatMap_cons, List.append_assoc]
  rfl

theorem terminated_nil : Terminated [] :=
  ⟨by simp, by simp, by simp, .nil⟩

/-- Rows are terminated if the first one is, the second does not merge with it, and the others
are. -/
theorem terminated_cons_iff {row : Row} {rows : List Row} :
    Terminated (row :: rows) ↔
      (∀ c ∈ row.line, isBreak c = false) ∧
      (BreakUnit row.terminator ∨ rows = [] ∧ row.terminator = [] ∧ row.line ≠ []) ∧
      (∀ next ∈ rows.head?, ¬ row.Merges next) ∧ Terminated rows := by
  cases rows with
  | nil =>
    constructor
    · rintro ⟨hunbroken, -, hlast, -⟩
      exact ⟨hunbroken row List.mem_cons_self, by simpa using hlast, by simp, terminated_nil⟩
    · rintro ⟨hline, hend, -, -⟩
      exact ⟨by simpa using hline, by simp, by simpa using hend, .singleton row⟩
  | cons next rows =>
    constructor
    · rintro ⟨hunbroken, hended, hlast, hapart⟩
      obtain ⟨hhead, htail⟩ := List.isChain_cons.mp hapart
      exact ⟨hunbroken row List.mem_cons_self, .inl (hended row List.mem_cons_self), hhead,
        fun r hr => hunbroken r (List.mem_cons_of_mem row hr),
        fun r hr => hended r (List.mem_cons_of_mem row hr), hlast, htail⟩
    · rintro ⟨hline, hend, hhead, hunbroken, hended, hlast, hapart⟩
      have hunit : BreakUnit row.terminator := hend.resolve_right fun h => List.cons_ne_nil _ _ h.1
      exact ⟨List.forall_mem_cons.mpr ⟨hline, hunbroken⟩,
        List.forall_mem_cons.mpr ⟨hunit, hended⟩, hlast, List.isChain_cons.mpr ⟨hhead, hapart⟩⟩

/-! ## Reading rows back -/

/-- A text without breaks stands in front of the first line. -/
theorem lines_append_of_unbroken {l : Text} (hl : ∀ c ∈ l, isBreak c = false) (t : Text) :
    lines (l ++ t) = appendLine l (lines t) := by
  induction l with
  | nil => rfl
  | cons c r ih =>
    rw [List.cons_append, lines_cons (hl c List.mem_cons_self),
      ih fun x hx => hl x (List.mem_cons_of_mem c hx)]
    rfl

/-- A break unit ends the line in front of it, unless it goes on behind. -/
theorem lines_unit {u r : Text} (hu : BreakUnit u) (hr : u = ['\r'] → r.head? ≠ some '\n') :
    lines (u ++ r) = [] :: lines r := by
  cases hu with
  | pair => exact lines_pair r
  | @single c hc => exact lines_break hc fun h => hr (by rw [h])

/-- Rows that do not start with a lone line feed are not written with one in front. -/
theorem Terminated.head?_written_ne {rows : List Row} (h : Terminated rows)
    (hfirst : ∀ row ∈ rows.head?, ¬ (row.line = [] ∧ row.terminator = ['\n'])) :
    (written rows).head? ≠ some '\n' := by
  cases rows with
  | nil => simp
  | cons row rows =>
    obtain ⟨hline, hend, -, -⟩ := terminated_cons_iff.mp h
    have hrow := hfirst row rfl
    rw [written_cons]
    -- the first character is one of the line, which is no break, or the first of a break unit
    cases hl : row.line with
    | cons c l =>
      intro hc
      obtain rfl : c = '\n' := by simpa using hc
      have hbreak := hline '\n' (by rw [hl]; exact List.mem_cons_self)
      exact absurd hbreak (by decide)
    | nil =>
      have hunit : BreakUnit row.terminator := hend.resolve_right fun h => h.2.2 hl
      cases hu : row.terminator with
      | nil =>
        rw [hu] at hunit
        nomatch hunit
      | cons c u =>
        rw [hu] at hunit
        intro hc
        obtain rfl : c = '\n' := by simpa using hc
        cases hunit with
        | single _ => exact hrow ⟨hl, hu⟩

/-- A carriage return that ends the first row is not written in front of a line feed. -/
theorem Terminated.head?_written_tail_ne {row : Row} {rows : List Row}
    (h : Terminated (row :: rows)) :
    row.terminator = ['\r'] → (written rows).head? ≠ some '\n' := by
  obtain ⟨-, -, hapart, hrows⟩ := terminated_cons_iff.mp h
  exact fun hr => hrows.head?_written_ne fun next hn hlone => hapart next hn ⟨hr, hlone⟩

/-- **Reading rows back.** The lines of a text that is written in rows are those of the rows. -/
theorem Terminated.lines_written {rows : List Row} (h : Terminated rows) :
    lines (written rows) = rows.map Row.line := by
  induction rows with
  | nil => rfl
  | cons row rows ih =>
    obtain ⟨hline, hend, -, hrows⟩ := terminated_cons_iff.mp h
    rw [written_cons, lines_append_of_unbroken hline, List.map_cons]
    rcases hend with hunit | ⟨rfl, hnil, hne⟩
    · rw [lines_unit hunit h.head?_written_tail_ne, appendLine_cons_line, List.append_nil, ih hrows]
    · rw [hnil, written_nil, List.nil_append, lines_nil, appendLine_nil_lines hne, List.map_nil]

/-! ## Writing a text in rows -/

/-- **Break by break.** A text is empty, or it starts with the pair, or with a break character that
opens no pair, or with another character. -/
@[elab_as_elim]
theorem breakInduction {motive : Text → Prop} (nil : motive [])
    (pair : ∀ r, motive r → motive ('\r' :: '\n' :: r))
    (single : ∀ c r, isBreak c = true → (c = '\r' → r.head? ≠ some '\n') → motive r →
      motive (c :: r))
    (other : ∀ c r, isBreak c = false → motive r → motive (c :: r))
    (t : Text) : motive t := by
  -- the pair takes two characters at once, so the induction is on the length
  induction h : t.length using Nat.strongRecOn generalizing t with
  | ind n ih =>
    subst h
    cases t with
    | nil => exact nil
    | cons c r =>
      have hr : motive r := ih r.length (Nat.lt_succ_self _) r rfl
      by_cases hc : isBreak c = true
      · by_cases hpair : c = '\r' ∧ r.head? = some '\n'
        · obtain ⟨rfl, hhead⟩ := hpair
          obtain ⟨s, rfl⟩ := List.head?_eq_some_iff.mp hhead
          refine pair s (ih s.length ?_ s rfl)
          rw [List.length_cons, List.length_cons]
          omega
        · exact single c r hc (fun h h' => hpair ⟨h, h'⟩) hr
      · exact other c r (Bool.eq_false_iff.mpr hc) hr

/-- Every text is written in rows. -/
theorem exists_terminated (t : Text) : ∃ rows, Terminated rows ∧ written rows = t := by
  induction t using breakInduction with
  | nil => exact ⟨[], terminated_nil, rfl⟩
  | pair r ih =>
    obtain ⟨rows, hrows, rfl⟩ := ih
    refine ⟨⟨[], ['\r', '\n']⟩ :: rows, terminated_cons_iff.mpr ?_, by simp⟩
    exact ⟨by simp, .inl .pair, fun next _ h => by simp [Row.Merges] at h, hrows⟩
  | single c r hc hr ih =>
    obtain ⟨rows, hrows, rfl⟩ := ih
    refine ⟨⟨[], [c]⟩ :: rows, terminated_cons_iff.mpr ?_, by simp⟩
    refine ⟨by simp, .inl (.single hc), fun next hn h => ?_, hrows⟩
    obtain ⟨hreturn, hline, hfeed⟩ := h
    obtain ⟨rest, rfl⟩ := List.head?_eq_some_iff.mp hn
    exact hr (by simpa using hreturn) (by simp [hline, hfeed])
  | other c r hc ih =>
    obtain ⟨rows, hrows, rfl⟩ := ih
    cases rows with
    | nil =>
      refine ⟨[⟨[c], []⟩], terminated_cons_iff.mpr ?_, by simp⟩
      exact ⟨by simpa using hc, .inr ⟨rfl, rfl, by simp⟩, by simp, terminated_nil⟩
    | cons row rows =>
      obtain ⟨hline, hend, hapart, hrest⟩ := terminated_cons_iff.mp hrows
      refine ⟨⟨c :: row.line, row.terminator⟩ :: rows, terminated_cons_iff.mpr ?_, by simp⟩
      refine ⟨List.forall_mem_cons.mpr ⟨hc, hline⟩, ?_, hapart, hrest⟩
      exact hend.imp_right fun ⟨hnil, hopen, _⟩ => ⟨hnil, hopen, List.cons_ne_nil c row.line⟩

/-- Only the empty text has no lines. -/
theorem lines_ne_nil {t : Text} (h : t ≠ []) : lines t ≠ [] := by
  obtain ⟨rows, hrows, rfl⟩ := exists_terminated t
  rw [hrows.lines_written]
  intro hnil
  rw [List.map_eq_nil_iff.mp hnil] at h
  exact h written_nil

/-- Only the characters of break units are lost. -/
theorem Terminated.flatten_lines {rows : List Row} (h : Terminated rows) :
    (rows.map Row.line).flatten = (written rows).filter fun c => !isBreak c := by
  induction rows with
  | nil => rfl
  | cons row rows ih =>
    obtain ⟨hline, hend, -, hrows⟩ := terminated_cons_iff.mp h
    have hkept : row.line.filter (fun c => !isBreak c) = row.line :=
      List.filter_eq_self.mpr fun c hc => by simp [hline c hc]
    have hlost : row.terminator.filter (fun c => !isBreak c) = [] := by
      rcases hend with hunit | ⟨-, hnil, -⟩
      · exact List.filter_eq_nil_iff.mpr fun c hc => by simp [hunit.isBreak_of_mem hc]
      · rw [hnil, List.filter_nil]
    rw [written_cons, List.filter_append, List.filter_append, hkept, hlost, ← ih hrows]
    rfl

/-- **The lines of a text.** They are the only lines without breaks that give the text when each is
written with a terminator: a break unit, or nothing behind a last line that is not empty, such that
no carriage return meets a line feed.  They hold all characters of the text but the breaks, in
order, and only the empty text has none. -/
theorem lines_eq_iff_terminated (t : Text) :
    (∀ ls, lines t = ls ↔
      ∃ rows, Terminated rows ∧ rows.map Row.line = ls ∧ written rows = t) ∧
    (lines t).flatten = t.filter (fun c => !isBreak c) ∧
    (lines t = [] ↔ t = []) := by
  obtain ⟨rows, hrows, rfl⟩ := exists_terminated t
  refine ⟨fun ls => ⟨?_, ?_⟩, ?_, ?_, ?_⟩
  · rintro rfl
    exact ⟨rows, hrows, hrows.lines_written.symm, rfl⟩
  · rintro ⟨rows', hrows', rfl, hwritten⟩
    rw [← hwritten, hrows'.lines_written]
  · rw [hrows.lines_written, hrows.flatten_lines]
  · intro h
    rw [hrows.lines_written, List.map_eq_nil_iff] at h
    rw [h, written_nil]
  · intro h
    rw [h, lines_nil]

end Text

end Conformance
