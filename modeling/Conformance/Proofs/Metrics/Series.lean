import Conformance.Proofs.Metrics.History
import Conformance.Proofs.Text.Cuts

/-!
# Keys are read back from the names of their series

Nothing is escaped in the name of a series, so a key can be read back from it only if it is `Plain`:
then its name ends at the first brace, its labels are what the commas separate, and a label is cut
at its first equals sign (`Key.ofSeries_series`).  Values may hold equals signs and braces, and
names and values may be empty.  Hence no two plain keys share a series, and their totals are kept
apart (`Key.series_separates`).
-/

namespace Conformance.Metrics

/-- A label as it stands in the name of a series. -/
def labelText (l : Text × Text) : Text := l.1 ++ '=' :: l.2

/-- Reads a label: what stands in front of its first equals sign, and what stands behind it. -/
def readLabel (t : Text) : Text × Text := (t.takeWhile (· ≠ '='), (t.dropWhile (· ≠ '=')).drop 1)

theorem readLabel_labelText {l : Text × Text} (h : '=' ∉ l.1) : readLabel (labelText l) = l := by
  rw [readLabel, labelText, Text.takeWhile_append_cons h, Text.dropWhile_append_cons h]
  rfl

namespace Key

/-- No part of the key holds the sign that ends it in the name of the series. -/
structure Plain (k : Key) : Prop where
  name : '{' ∉ k.name
  labels : ∀ l ∈ k.labels, '=' ∉ l.1 ∧ ',' ∉ l.1 ∧ ',' ∉ l.2

instance (k : Key) : Decidable k.Plain :=
  decidable_of_iff ('{' ∉ k.name ∧ ∀ l ∈ k.labels, '=' ∉ l.1 ∧ ',' ∉ l.1 ∧ ',' ∉ l.2)
    ⟨fun h => ⟨h.1, h.2⟩, fun h => ⟨h.1, h.2⟩⟩

/-- Reads a key from the name of its series. -/
def ofSeries (t : Text) : Key :=
  ⟨t.takeWhile (· ≠ '{'),
    match t.dropWhile (· ≠ '{') with
    | [] => []
    | _ :: body => (Text.splitAt ',' body.dropLast).map readLabel⟩

theorem series_bare (name : Text) : (Key.mk name []).series = name := rfl

theorem series_labels (name : Text) (l : Text × Text) (rest : List (Text × Text)) :
    (Key.mk name (l :: rest)).series =
      name ++ '{' :: (Text.join [','] ((l :: rest).map labelText) ++ ['}']) := by
  rw [series, if_neg (by simp), List.append_assoc, List.append_assoc]
  rfl

theorem readLabel_labels {labels : List (Text × Text)} (h : ∀ l ∈ labels, '=' ∉ l.1) :
    (labels.map labelText).map readLabel = labels := by
  rw [List.map_map]
  conv_rhs => rw [← List.map_id labels]
  exact List.map_congr_left fun l hl => readLabel_labelText (h l hl)

/-- **Reading back.** A plain key is read from the name of its series. -/
theorem ofSeries_series {k : Key} (h : k.Plain) : ofSeries k.series = k := by
  obtain ⟨name, labels⟩ := k
  cases labels with
  | nil => rw [series_bare, ofSeries, Text.takeWhile_of_not_mem h.name,
      Text.dropWhile_of_not_mem h.name]
  | cons l rest =>
    have hcommas : ∀ t ∈ (l :: rest).map labelText, ',' ∉ t := by
      intro t ht
      obtain ⟨label, hlabel, rfl⟩ := List.mem_map.mp ht
      obtain ⟨-, hkey, hvalue⟩ := h.labels label hlabel
      simp [labelText, hkey, hvalue]
    have hread : Text.splitAt ',' (Text.join [','] ((l :: rest).map labelText)) =
        (l :: rest).map labelText :=
      Text.splitAt_join (by simp) hcommas
    rw [series_labels, ofSeries, Text.takeWhile_append_cons h.name,
      Text.dropWhile_append_cons h.name]
    dsimp only
    rw [List.dropLast_concat, hread, readLabel_labels fun l hl => (h.labels l hl).1]

theorem eq_of_series_eq {k l : Key} (hk : k.Plain) (hl : l.Plain) (h : k.series = l.series) :
    k = l := by
  rw [← ofSeries_series hk, h, ofSeries_series hl]

end Key

/-! ## Totals of a key -/

/-- The key whose total an operation changes. -/
def Operation.key? : Operation → Option Key
  | describe => none
  | increment key _ => some key
  | absolute key _ => some key
  | histogram key _ => some key
  | gauge _ _ => none

/-- The series that a total belongs to. -/
def Total.series : Total → Text
  | counter series => series
  | timing series => series

theorem Operation.exists_key {op : Operation} {t : Total} (h : op.total? = some t) :
    ∃ key, op.key? = some key ∧ key.series = t.series := by
  cases op with
  | increment key amount => exact ⟨key, rfl, congrArg Total.series (Option.some.inj h)⟩
  | absolute key value => exact ⟨key, rfl, congrArg Total.series (Option.some.inj h)⟩
  | histogram key value => exact ⟨key, rfl, congrArg Total.series (Option.some.inj h)⟩
  | describe => simp [total?] at h
  | gauge => simp [total?] at h

open Recorder

/-- **Separate series.** Two plain keys share a series only if they have the same name and the same
labels in the same order.  So in a history of plain keys, what is read under the series of a key
comes from the operations on this key alone. -/
theorem Key.series_separates {k : Key} (hk : k.Plain) :
    (∀ l : Key, l.Plain → (k.series = l.series ↔ k.name = l.name ∧ k.labels = l.labels)) ∧
    ∀ ops : List Operation, (∀ op ∈ ops, ∀ l ∈ op.key?, l.Plain) →
      (empty.recordAll ops).counter? k.series =
        (empty.recordAll (ops.filter fun op => op.key? = some k)).counter? k.series ∧
      (empty.recordAll ops).timing? k.series =
        (empty.recordAll (ops.filter fun op => op.key? = some k)).timing? k.series := by
  constructor
  · intro l hl
    constructor
    · intro h
      rw [eq_of_series_eq hk hl h]
      exact ⟨rfl, rfl⟩
    · rintro ⟨hname, hlabels⟩
      rw [series, series, hname, hlabels]
  · intro ops hops
    have hkeep : ∀ op ∈ ops, ∀ t, op.total? = some t → t.series = k.series →
        decide (op.key? = some k) = true := by
      intro op hop t htotal hseries
      obtain ⟨l, hl, hlseries⟩ := Operation.exists_key htotal
      rw [hl, eq_of_series_eq (hops op hop l hl) hk (hlseries.trans hseries)]
      exact decide_eq_true rfl
    exact ⟨(counter?_filter fun op hop htotal => hkeep op hop _ htotal rfl).symm,
      (timing?_filter fun op hop htotal => hkeep op hop _ htotal rfl).symm⟩

/-- A value that looks like two labels in braces, and the two labels. -/
theorem Key.series_separates_lookalikes :
    let one : Key := ⟨['m'], [([], "a=b\x7d".toList)]⟩
    let two : Key := ⟨['m'], [([], ['a']), (['b'], [])]⟩
    let ops : List Operation := [.increment one 1, .absolute two 5, .increment ⟨['m'], []⟩ 7]
    one.Plain ∧ two.Plain ∧ one.series ≠ two.series ∧ (∀ op ∈ ops, ∀ l ∈ op.key?, l.Plain) ∧
    (empty.recordAll ops).counter? one.series = some 1 := by
  intro one two ops
  have hone : one.Plain := by decide
  have htwo : two.Plain := by decide
  have hops : ∀ op ∈ ops, ∀ l ∈ op.key?, l.Plain := by decide
  obtain ⟨hshared, hread⟩ := Key.series_separates hone
  refine ⟨hone, htwo, fun h => ?_, hops, ?_⟩
  · exact absurd ((hshared two htwo).mp h).2 (by decide)
  · rw [(hread ops hops).1]
    decide

end Conformance.Metrics
