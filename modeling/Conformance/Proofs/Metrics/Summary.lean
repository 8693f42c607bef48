import Conformance.Proofs.Metrics.History
import Conformance.Proofs.Text.ByteOrder

/-!
# The summary lists every series once

The tables of a recorder list what can be read from it (`Table.Ordered.lists`), in the order of the
bytes of the names.  The summary shows them line by line (`summary_lists_series`); so it depends on
the totals alone, and not on the order in which their series came up.
-/

namespace Conformance.Metrics

/-- The entries are what can be read, each once, in the order of the bytes of their names. -/
structure Lists {α : Type} (entries : List (Text × α)) (read : Text → Option α) : Prop where
  ordered : entries.Pairwise fun a b => Utf8.encode a.1 < Utf8.encode b.1
  mem_iff : ∀ name x, (name, x) ∈ entries ↔ read name = some x

theorem Table.Ordered.lists {α : Type} {t : Table α} (h : t.Ordered) : Lists t t.get? where
  ordered := List.Pairwise.imp Utf8.encode_lt_encode h
  mem_iff _ _ := (get?_eq_some_iff h).symm

/-- What is listed is what can be read at all. -/
theorem Lists.exists_iff {α : Type} {entries : List (Text × α)} {read : Text → Option α}
    (h : Lists entries read) (name : Text) : (∃ x, (name, x) ∈ entries) ↔ read name ≠ none := by
  rw [Option.ne_none_iff_exists']
  exact exists_congr fun x => h.mem_iff name x

namespace Recorder

/-- A recorder is empty exactly after histories that change no total. -/
theorem isEmpty_recordAll_iff {ops : List Operation} :
    ((empty.recordAll ops).counters.isEmpty && (empty.recordAll ops).timings.isEmpty) = true ↔
      ∀ op ∈ ops, op.total? = none := by
  rw [Bool.and_eq_true, List.isEmpty_iff, List.isEmpty_iff]
  constructor
  · rintro ⟨hcounters, htimings⟩ op hop
    cases htotal : op.total? with
    | none => rfl
    | some t =>
      cases t with
      | counter series =>
        have hread : (empty.recordAll ops).counter? series = none := by
          rw [counter?, hcounters]
          rfl
        exact absurd htotal (counter?_recordAll_eq_none_iff.mp hread op hop)
      | timing series =>
        have hread : (empty.recordAll ops).timing? series = none := by
          rw [timing?, htimings]
          rfl
        exact absurd htotal (timing?_recordAll_eq_none_iff.mp hread op hop)
  · intro h
    have hfilter : (ops.filter fun op => op.total?.isSome) = [] := by
      apply List.filter_eq_nil_iff.mpr
      intro op hop
      simp [h op hop]
    rw [← recordAll_filter_total?, hfilter]
    exact ⟨rfl, rfl⟩

/-- Every line of a series starts with a space, so none is the remark that there are none. -/
theorem noneRecorded_not_mem (counters : Table Nat) (timings : Table Timing) :
    "(none recorded)".toList ∉ counters.map counterLine ++ timings.map timingLine := by
  have hstart : ∀ line ∈ counters.map counterLine ++ timings.map timingLine,
      line.head? = some ' ' := by
    rw [List.forall_mem_append, List.forall_mem_map, List.forall_mem_map]
    exact ⟨fun _ _ => rfl, fun _ _ => rfl⟩
  intro h
  exact absurd (hstart _ h) (by decide)

/-- **The summary.** After any history of an empty recorder, the summary is an empty line and a
header, then a line for each counter and a line for each timing that was ever changed, in the order
of the bytes of their names and with what can be read there now; only a history that changes no
total has a remark in their place.  Histories that leave the same totals have the same summary. -/
theorem summary_lists_series (ops : List Operation) :
    (∃ (counters : List (Text × Nat)) (timings : List (Text × Timing)),
      Lists counters (empty.recordAll ops).counter? ∧
      (∀ series, (∃ n, (series, n) ∈ counters) ↔
        ∃ op ∈ ops, op.total? = some (.counter series)) ∧
      Lists timings (empty.recordAll ops).timing? ∧
      (∀ series, (∃ t, (series, t) ∈ timings) ↔
        ∃ op ∈ ops, op.total? = some (.timing series)) ∧
      (empty.recordAll ops).summary =
        [] :: "=== Metrics ===".toList ::
          if ∀ op ∈ ops, op.total? = none then ["(none recorded)".toList]
          else counters.map counterLine ++ timings.map timingLine) ∧
    ("(none recorded)".toList ∈ (empty.recordAll ops).summary ↔ ∀ op ∈ ops, op.total? = none) ∧
    ∀ ops' : List Operation,
      (∀ series, (empty.recordAll ops).counter? series = (empty.recordAll ops').counter? series ∧
        (empty.recordAll ops).timing? series = (empty.recordAll ops').timing? series) →
      (empty.recordAll ops).summary = (empty.recordAll ops').summary := by
  have hordered := ordered_recordAll ops
  have hcounters : Lists (empty.recordAll ops).counters (empty.recordAll ops).counter? :=
    hordered.counters.lists
  have htimings : Lists (empty.recordAll ops).timings (empty.recordAll ops).timing? :=
    hordered.timings.lists
  have hsummary : (empty.recordAll ops).summary =
      [] :: "=== Metrics ===".toList ::
        if ∀ op ∈ ops, op.total? = none then ["(none recorded)".toList]
        else (empty.recordAll ops).counters.map counterLine ++
          (empty.recordAll ops).timings.map timingLine := by
    simp only [summary, isEmpty_recordAll_iff]
  refine ⟨⟨_, _, hcounters, fun series => ?_, htimings, fun series => ?_, hsummary⟩, ?_,
    fun ops' h => ?_⟩
  · rw [hcounters.exists_iff, ne_eq, counter?_recordAll_eq_none_iff]
    simp
  · rw [htimings.exists_iff, ne_eq, timing?_recordAll_eq_none_iff]
    simp
  · have hhead : "(none recorded)".toList ≠ [] := by decide
    have hheader : "(none recorded)".toList ≠ "=== Metrics ===".toList := by decide
    rw [hsummary, List.mem_cons, List.mem_cons, or_iff_right hhead, or_iff_right hheader]
    split
    · next h => exact iff_of_true List.mem_cons_self h
    · next h => exact iff_of_false (noneRecorded_not_mem _ _) h
  · rw [Ordered.eq_of_readings hordered (ordered_recordAll ops') (fun series => (h series).1)
      fun series => (h series).2]

/-- A name that is a counter and a timing, and a counter of zero, in two orders and set in two
ways. -/
theorem summary_lists_series_other_order :
    let ops : List Operation :=
      [.increment ⟨['b'], []⟩ 0, .histogram ⟨['a'], []⟩ 0.5, .increment ⟨['a'], []⟩ 2]
    let ops' : List Operation :=
      [.absolute ⟨['a'], []⟩ 2, .gauge ⟨['c'], []⟩ 1, .histogram ⟨['a'], []⟩ 0.5,
        .absolute ⟨['b'], []⟩ 0]
    (∀ series, (empty.recordAll ops).counter? series = (empty.recordAll ops').counter? series ∧
      (empty.recordAll ops).timing? series = (empty.recordAll ops').timing? series) ∧
    (empty.recordAll ops).summary = (empty.recordAll ops').summary := by
  intro ops ops'
  have htotals : empty.recordAll ops = empty.recordAll ops' := rfl
  have hread : ∀ series,
      (empty.recordAll ops).counter? series = (empty.recordAll ops').counter? series ∧
      (empty.recordAll ops).timing? series = (empty.recordAll ops').timing? series := by
    intro series
    rw [htotals]
    exact ⟨rfl, rfl⟩
  exact ⟨hread, (summary_lists_series ops).2.2 ops' hread⟩

end Recorder

end Conformance.Metrics
