import Conformance.Proofs.Text.Lines

/-!
# The lines of a text in chunks

A text that is read in chunks may be cut anywhere.  A chunk is `Closed` if it is empty or ends in a
break character, so that no line is open at its end, and a cut `Severs` a pair if it falls between a
carriage return and its line feed.  The lines of a closed chunk stay as they are, unless the cut
severs a pair (`lines_append_of_closed`).  Every chunk is a closed one with an open line behind it
(`exists_closed_append`), and the open line goes on with the first line of the next chunk
(`lines_append_open`).  A line feed that is severed from its carriage return opens no line
(`lines_append_of_severs`).
-/

namespace Conformance.Text

/-- No line is open at the end of the text: it is empty or ends in a break character. -/
def Closed (t : Text) : Prop := ∀ c ∈ t.getLast?, isBreak c = true

/-- The cut between two texts falls inside the pair carriage return, line feed. -/
def Severs (a b : Text) : Prop := a.getLast? = some '\r' ∧ b.head? = some '\n'

theorem closed_nil : Closed [] := nofun

theorem closed_concat_iff {t : Text} {c : Char} : Closed (t ++ [c]) ↔ isBreak c = true := by
  simp [Closed]

/-- What is behind the first character of a closed text is closed. -/
theorem Closed.tail {c : Char} {r : Text} (h : Closed (c :: r)) : Closed r := by
  by_cases hr : r = []
  · subst hr
    exact closed_nil
  · rwa [Closed, List.getLast?_cons_of_ne_nil hr] at h

theorem Severs.cons {r b : Text} (h : Severs r b) (c : Char) : Severs (c :: r) b := by
  have hr : r ≠ [] := by
    rintro rfl
    exact nomatch h.1
  exact ⟨by rw [List.getLast?_cons_of_ne_nil hr, h.1], h.2⟩

/-! ## A closed chunk -/

theorem consLine_append {ls : List Text} (h : ls ≠ []) (c : Char) (ls' : List Text) :
    consLine c (ls ++ ls') = consLine c ls ++ ls' := by
  cases ls with
  | nil => exact absurd rfl h
  | cons l ls => rfl

/-- The lines of a closed chunk are followed by those of the next one. -/
theorem lines_append_of_closed {a b : Text} (ha : Closed a) (hcut : ¬ Severs a b) :
    lines (a ++ b) = lines a ++ lines b := by
  induction a using breakInduction with
  | nil => rfl
  | pair r ih =>
    have hrest : ¬ Severs r b := fun h => hcut ((h.cons '\n').cons '\r')
    rw [List.cons_append, List.cons_append, lines_pair, lines_pair, ih ha.tail.tail hrest,
      List.cons_append]
  | single c r hc hr ih =>
    have hrest : ¬ Severs r b := fun h => hcut (h.cons c)
    -- a carriage return at the end of the chunk meets the front of the next one
    have hpair : c = '\r' → (r ++ b).head? ≠ some '\n' := by
      rintro rfl
      cases r with
      | nil => exact fun hb => hcut ⟨rfl, hb⟩
      | cons d s => exact hr rfl
    rw [List.cons_append, lines_break hc hpair, lines_break hc hr, ih ha.tail hrest,
      List.cons_append]
  | other c r hc ih =>
    have hrest : ¬ Severs r b := fun h => hcut (h.cons c)
    -- the first line does not end at the end of the chunk
    have hr : r ≠ [] := by
      rintro rfl
      have hbreak : isBreak c = true := ha c rfl
      rw [hc] at hbreak
      exact Bool.noConfusion hbreak
    rw [List.cons_append, lines_cons hc, lines_cons hc, ih ha.tail hrest,
      consLine_append (lines_ne_nil hr)]

/-! ## An open line -/

/-- Every text is a closed one with an open line behind it, which may be empty. -/
theorem exists_closed_append (t : Text) :
    ∃ a l, Closed a ∧ (∀ c ∈ l, isBreak c = false) ∧ t = a ++ l := by
  induction t using List.reverseRecOn with
  | nil => exact ⟨[], [], closed_nil, by simp, rfl⟩
  | append_singleton t c ih =>
    by_cases hc : isBreak c = true
    · exact ⟨t ++ [c], [], closed_concat_iff.mpr hc, by simp, (List.append_nil _).symm⟩
    · obtain ⟨a, l, ha, hl, rfl⟩ := ih
      refine ⟨a, l ++ [c], ha, fun d hd => ?_, List.append_assoc a l [c]⟩
      rcases List.mem_append.mp hd with hd | hd
      · exact hl d hd
      · rw [List.mem_singleton.mp hd]
        exact Bool.eq_false_iff.mpr hc

/-- A text without breaks does not begin with the line feed of a pair. -/
theorem not_severs_append {a l b : Text} (hl : ∀ c ∈ l, isBreak c = false)
    (hb : l = [] → b.head? ≠ some '\n') : ¬ Severs a (l ++ b) := by
  rintro ⟨-, hhead⟩
  cases l with
  | nil => exact hb rfl hhead
  | cons c r =>
    obtain rfl : c = '\n' := Option.some.inj hhead
    exact absurd (hl '\n' List.mem_cons_self) (by decide)

/-- The open line of a chunk goes on with the first line of the next one. -/
theorem lines_append_open {a l b : Text} (ha : Closed a) (hl : ∀ c ∈ l, isBreak c = false)
    (hb : l = [] → b.head? ≠ some '\n') :
    lines (a ++ l ++ b) = lines a ++ appendLine l (lines b) := by
  rw [List.append_assoc, lines_append_of_closed ha (not_severs_append hl hb),
    lines_append_of_unbroken hl]

/-- A chunk that ends in an open line shares this line with the next chunk. -/
theorem lines_append_of_not_closed {a b : Text} (ha : ¬ Closed a) (hb : b ≠ []) :
    ∃ init last first rest, lines a = init ++ [last] ∧ lines b = first :: rest ∧
      lines (a ++ b) = init ++ (last ++ first) :: rest := by
  obtain ⟨t, l, ht, hl, rfl⟩ := exists_closed_append a
  have hne : l ≠ [] := by
    rintro rfl
    rw [List.append_nil] at ha
    exact ha ht
  obtain ⟨first, rest, hfirst⟩ := List.exists_cons_of_ne_nil (lines_ne_nil hb)
  refine ⟨lines t, l, first, rest, ?_, hfirst, ?_⟩
  · have halone := lines_append_open (b := []) ht hl fun h => absurd h hne
    rwa [List.append_nil, lines_nil, appendLine_nil_lines hne] at halone
  · rw [lines_append_open ht hl fun h => absurd h hne, hfirst, appendLine_cons_line]

/-! ## A severed pair -/

/-- A line feed behind a carriage return opens no line. -/
theorem lines_concat_pair (t : Text) : lines (t ++ ['\r', '\n']) = lines (t ++ ['\r']) := by
  obtain ⟨a, l, ha, hl, rfl⟩ := exists_closed_append t
  rw [lines_append_open ha hl fun _ => by decide, lines_append_open ha hl fun _ => by decide]
  rfl

/-- A pair that is cut ends one line, so its line feed may be left out of the next chunk. -/
theorem lines_append_of_severs {a b : Text} (h : Severs a b) :
    lines (a ++ b) = lines a ++ lines b.tail := by
  obtain ⟨hreturn, hfeed⟩ := h
  obtain ⟨t, rfl⟩ := List.getLast?_eq_some_iff.mp hreturn
  obtain ⟨r, rfl⟩ := List.head?_eq_some_iff.mp hfeed
  -- the cut is moved behind the line feed
  have hmoved : t ++ ['\r'] ++ '\n' :: r = t ++ ['\r', '\n'] ++ r := by simp
  have hclosed : Closed (t ++ ['\r', '\n']) := by
    rw [Closed, List.getLast?_append]
    simp [isBreak]
  have hcut : ¬ Severs (t ++ ['\r', '\n']) r := by
    rintro ⟨h, -⟩
    simp at h
  rw [hmoved, lines_append_of_closed hclosed hcut, lines_concat_pair]
  rfl

/-- **The lines of a text in chunks.** Let a text be cut in two.  If the first chunk is empty or
ends in a break character, its lines are followed by those of the second; where the cut falls
between a carriage return and a line feed, by those of the second without the line feed.  If the
first chunk ends in any other character, its last line and the first line of the second chunk are
one line. -/
theorem lines_append_in_chunks (a b : Text) :
    (Closed a → ¬ Severs a b → lines (a ++ b) = lines a ++ lines b) ∧
    (Severs a b → lines (a ++ b) = lines a ++ lines b.tail) ∧
    (¬ Closed a → b ≠ [] → ∃ init last first rest,
      lines a = init ++ [last] ∧ lines b = first :: rest ∧
      lines (a ++ b) = init ++ (last ++ first) :: rest) :=
  ⟨lines_append_of_closed, lines_append_of_severs, lines_append_of_not_closed⟩

end Conformance.Text
