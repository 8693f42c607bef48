import Mathlib.Data.List.DropRight
import Mathlib.Data.List.Induction
import Conformance.Proofs.Metrics.Table

/-!
# Totals as folds of a history

An operation changes one total, the counter or the timing of its series, or none
(`Operation.total?`), and `counter?_record` and `timing?_record` say what any total is after it.
From this, by induction on the end of a history, a counter is what it was last set to and what has
been added since (`counter?_recordAll_eq`), and a timing is the fold of its values
(`timing?_recordAll_eq`).

Operations on different totals commute (`record_comm`), so that histories which differ by exchanges
of such operations leave the same totals (`Reordered.recordAll_eq`).
-/

namespace Conformance.Metrics

/-- What an operation may change: the counter or the timing of a series. -/
inductive Total
  | counter (series : Text)
  | timing (series : Text)
  deriving DecidableEq, Repr

namespace Operation

/-- The total that an operation changes; descriptions and gauges change none. -/
def total? : Operation → Option Total
  | describe => none
  | increment key _ => some (.counter key.series)
  | absolute key _ => some (.counter key.series)
  | histogram key _ => some (.timing key.series)
  | gauge _ _ => none

/-- The value that an operation sets the counter of a series to. -/
def sets? (series : Text) : Operation → Option Nat
  | absolute key value => if key.series = series then some value else none
  | _ => none

/-- The amount that an operation adds to the counter of a series. -/
def adds? (series : Text) : Operation → Option Nat
  | increment key amount => if key.series = series then some amount else none
  | _ => none

/-- The value that an operation adds to the timing of a series. -/
def value? (series : Text) : Operation → Option Float
  | histogram key value => if key.series = series then some value else none
  | _ => none

theorem adds?_of_sets? {op : Operation} {series : Text} {n : Nat} (h : op.sets? series = some n) :
    op.adds? series = none := by
  cases op <;> simp [sets?, adds?] at h ⊢

/-- What does not change a counter neither sets it nor adds to it. -/
theorem sets?_of_total?_ne {op : Operation} {series : Text}
    (h : op.total? ≠ some (.counter series)) : op.sets? series = none := by
  cases op with
  | absolute key value =>
    have hkey : key.series ≠ series := by
      intro hkey
      apply h
      rw [total?, hkey]
    rw [sets?, if_neg hkey]
  | describe => rfl
  | increment => rfl
  | histogram => rfl
  | gauge => rfl

theorem adds?_of_total?_ne {op : Operation} {series : Text}
    (h : op.total? ≠ some (.counter series)) : op.adds? series = none := by
  cases op with
  | increment key amount =>
    have hkey : key.series ≠ series := by
      intro hkey
      apply h
      rw [total?, hkey]
    rw [adds?, if_neg hkey]
  | describe => rfl
  | absolute => rfl
  | histogram => rfl
  | gauge => rfl

theorem value?_eq_none_iff {op : Operation} {series : Text} :
    op.value? series = none ↔ op.total? ≠ some (.timing series) := by
  cases op <;> simp [value?, total?]

/-- Operations that do not change the same total. -/
def Independent (a b : Operation) : Prop := a.total? = none ∨ a.total? ≠ b.total?

instance (a b : Operation) : Decidable (a.Independent b) := inferInstanceAs (Decidable (_ ∨ _))

theorem Independent.not_both {a b : Operation} (h : a.Independent b) {t : Total}
    (ha : a.total? = some t) : b.total? ≠ some t := by
  intro hb
  rcases h with hnone | hne
  · rw [hnone] at ha
    exact nomatch ha
  · exact hne (ha.trans hb.symm)

end Operation

namespace Timing

/-- The totals with one value more, of none or of some values before. -/
def more (old : Option Timing) (x : Float) : Timing :=
  match old with
  | none => first x
  | some t => t.add x

/-- The totals of values in their order: the least, the greatest and the sum are left folds that
start from the first of them. -/
def of? : List Float → Option Timing
  | [] => none
  | x :: xs => some ⟨(x :: xs).length, xs.foldl lesser x, xs.foldl greater x, xs.foldl (· + ·) x⟩

theorem of?_eq_none_iff {xs : List Float} : of? xs = none ↔ xs = [] := by
  cases xs <;> simp [of?]

theorem of?_concat (xs : List Float) (x : Float) : of? (xs ++ [x]) = some (more (of? xs) x) := by
  cases xs with
  | nil => rfl
  | cons y ys => simp [of?, more, add]

end Timing

/-! ## What a history says -/

/-- The value that the counter of a series was last set to; zero if it never was. -/
def lastSet (series : Text) (ops : List Operation) : Nat :=
  (ops.filterMap (·.sets? series)).getLast?.getD 0

/-- The operations behind the last that sets the counter of a series; all of them if none does. -/
def sinceSet (series : Text) (ops : List Operation) : List Operation :=
  ops.rtakeWhile fun op => (op.sets? series).isNone

/-- The sum of what is added to the counter of a series. -/
def added (series : Text) (ops : List Operation) : Nat :=
  (ops.filterMap (·.adds? series)).foldl (· + ·) 0

/-- The values of the timing of a series, in their order. -/
def valuesOf (series : Text) (ops : List Operation) : List Float := ops.filterMap (·.value? series)

theorem counted_concat (series : Text) (ops : List Operation) (op : Operation) :
    lastSet series (ops ++ [op]) + added series (sinceSet series (ops ++ [op])) =
      (op.sets? series).getD (lastSet series ops + added series (sinceSet series ops)) +
        (op.adds? series).getD 0 := by
  cases hset : op.sets? series with
  | some n =>
    have hsince : sinceSet series (ops ++ [op]) = [] :=
      List.rtakeWhile_concat_neg _ _ _ (by simp [hset])
    rw [hsince, Operation.adds?_of_sets? hset]
    simp [lastSet, added, hset]
  | none =>
    have hsince : sinceSet series (ops ++ [op]) = sinceSet series ops ++ [op] :=
      List.rtakeWhile_concat_pos _ _ _ (by simp [hset])
    have hlast : lastSet series (ops ++ [op]) = lastSet series ops := by simp [lastSet, hset]
    have hadded : added series (sinceSet series ops ++ [op]) =
        added series (sinceSet series ops) + (op.adds? series).getD 0 := by
      cases hadds : op.adds? series <;> simp [added, hadds]
    rw [hsince, hlast, hadded, Option.getD_none, Nat.add_assoc]

theorem valuesOf_eq_nil_iff {series : Text} {ops : List Operation} :
    valuesOf series ops = [] ↔ ∀ op ∈ ops, op.total? ≠ some (.timing series) := by
  simp only [valuesOf, List.filterMap_eq_nil_iff, Operation.value?_eq_none_iff]

namespace Recorder

variable {r : Recorder}

/-- Both tables of a recorder are ordered. -/
structure Ordered (r : Recorder) : Prop where
  counters : r.counters.Ordered
  timings : r.timings.Ordered

theorem Ordered.record {r : Recorder} (h : r.Ordered) (op : Operation) : (r.record op).Ordered := by
  cases op with
  | describe => exact h
  | increment key amount => exact ⟨h.counters.update _ _, h.timings⟩
  | absolute key value => exact ⟨h.counters.update _ _, h.timings⟩
  | histogram key value => exact ⟨h.counters, h.timings.update _ _⟩
  | gauge key value => exact h

theorem recordAll_concat (r : Recorder) (ops : List Operation) (op : Operation) :
    r.recordAll (ops ++ [op]) = (r.recordAll ops).record op := by
  simp [recordAll]

theorem ordered_recordAll (ops : List Operation) : (empty.recordAll ops).Ordered := by
  induction ops using List.reverseRecOn with
  | nil => exact ⟨.nil, .nil⟩
  | append_singleton ops op ih =>
    rw [recordAll_concat]
    exact ih.record op

/-! ## One operation -/

/-- **One step of a counter.** -/
theorem counter?_record (h : r.Ordered) (op : Operation) (series : Text) :
    (r.record op).counter? series =
      if op.total? = some (.counter series) then
        some ((op.sets? series).getD ((r.counter? series).getD 0) + (op.adds? series).getD 0)
      else r.counter? series := by
  cases op with
  | describe => simp [Recorder.record, Operation.total?]
  | increment key amount =>
    have hread : (r.record (.increment key amount)).counter? series = _ :=
      Table.get?_update h.counters ..
    rw [hread]
    by_cases hkey : key.series = series
    · subst hkey
      simp [Operation.total?, Operation.sets?, Operation.adds?, counter?]
    · simp [Operation.total?, hkey, counter?]
  | absolute key value =>
    have hread : (r.record (.absolute key value)).counter? series = _ :=
      Table.get?_update h.counters ..
    rw [hread]
    by_cases hkey : key.series = series
    · subst hkey
      simp [Operation.total?, Operation.sets?, Operation.adds?]
    · simp [Operation.total?, hkey, counter?]
  | histogram key value => simp [Recorder.record, Operation.total?, counter?]
  | gauge key value => simp [Recorder.record, Operation.total?]

/-- **One step of a timing.** -/
theorem timing?_record (h : r.Ordered) (op : Operation) (series : Text) :
    (r.record op).timing? series =
      match op.value? series with
      | none => r.timing? series
      | some x => some (Timing.more (r.timing? series) x) := by
  cases op with
  | describe => rfl
  | increment key amount => rfl
  | absolute key value => rfl
  | histogram key value =>
    have hread : (r.record (.histogram key value)).timing? series = _ :=
      Table.get?_update h.timings ..
    rw [hread, Operation.value?]
    by_cases hkey : key.series = series
    · subst hkey
      rw [if_pos rfl, if_pos rfl]
      rfl
    · rw [if_neg hkey, if_neg hkey]
      rfl
  | gauge key value => rfl

/-! ## A history -/

theorem counter?_recordAll_eq_none_iff {ops : List Operation} {series : Text} :
    (empty.recordAll ops).counter? series = none ↔
      ∀ op ∈ ops, op.total? ≠ some (.counter series) := by
  induction ops using List.reverseRecOn with
  | nil => simp [recordAll, empty, counter?, Table.get?]
  | append_singleton ops op ih =>
    rw [recordAll_concat, counter?_record (ordered_recordAll ops)]
    simp only [List.forall_mem_append, List.forall_mem_singleton, ← ih]
    split
    · next h => simp [h]
    · next h => simp [h]

theorem getD_counter?_recordAll (ops : List Operation) (series : Text) :
    ((empty.recordAll ops).counter? series).getD 0 =
      lastSet series ops + added series (sinceSet series ops) := by
  induction ops using List.reverseRecOn with
  | nil => rfl
  | append_singleton ops op ih =>
    rw [recordAll_concat, counter?_record (ordered_recordAll ops), counted_concat, ← ih]
    split
    · rfl
    · next h =>
      rw [Operation.sets?_of_total?_ne h, Operation.adds?_of_total?_ne h]
      rfl

/-- **A counter** is what it was last set to and what has been added since. -/
theorem counter?_recordAll_eq (ops : List Operation) (series : Text) :
    (empty.recordAll ops).counter? series =
      if ∃ op ∈ ops, op.total? = some (.counter series) then
        some (lastSet series ops + added series (sinceSet series ops))
      else none := by
  split
  · next h =>
    obtain ⟨op, hop, htotal⟩ := h
    cases hread : (empty.recordAll ops).counter? series with
    | none => exact absurd htotal (counter?_recordAll_eq_none_iff.mp hread op hop)
    | some n => rw [← getD_counter?_recordAll, hread, Option.getD_some]
  · next h =>
    refine counter?_recordAll_eq_none_iff.mpr fun op hop htotal => ?_
    exact h ⟨op, hop, htotal⟩

/-- **A timing** is the fold of its values. -/
theorem timing?_recordAll_eq (ops : List Operation) (series : Text) :
    (empty.recordAll ops).timing? series = Timing.of? (valuesOf series ops) := by
  induction ops using List.reverseRecOn with
  | nil => rfl
  | append_singleton ops op ih =>
    rw [recordAll_concat, timing?_record (ordered_recordAll ops), ih, valuesOf, valuesOf,
      List.filterMap_append]
    cases hvalue : op.value? series with
    | none => simp [hvalue]
    | some x => simp [hvalue, Timing.of?_concat]

theorem timing?_recordAll_eq_none_iff {ops : List Operation} {series : Text} :
    (empty.recordAll ops).timing? series = none ↔
      ∀ op ∈ ops, op.total? ≠ some (.timing series) := by
  rw [timing?_recordAll_eq, Timing.of?_eq_none_iff, valuesOf_eq_nil_iff]

/-! ## Parts of a history -/

/-- A counter is read off the operations that may change it. -/
theorem counter?_filter {ops : List Operation} {keep : Operation → Bool} {series : Text}
    (hkeep : ∀ op ∈ ops, op.total? = some (.counter series) → keep op = true) :
    (empty.recordAll (ops.filter keep)).counter? series =
      (empty.recordAll ops).counter? series := by
  induction ops using List.reverseRecOn with
  | nil => rfl
  | append_singleton ops op ih =>
    obtain ⟨hops, hop⟩ := List.forall_mem_append.mp hkeep
    have hread := ih hops
    rw [List.filter_append, recordAll_concat, counter?_record (ordered_recordAll ops), ← hread]
    cases hk : keep op with
    | true =>
      rw [List.filter_cons_of_pos hk, List.filter_nil, recordAll_concat,
        counter?_record (ordered_recordAll _)]
    | false =>
      have hne : op.total? ≠ some (.counter series) := by
        intro htotal
        have hkept := hop op List.mem_cons_self htotal
        simp [hk] at hkept
      rw [List.filter_cons_of_neg (by simp [hk]), List.filter_nil, List.append_nil, if_neg hne]

/-- A timing is read off the operations that may change it. -/
theorem timing?_filter {ops : List Operation} {keep : Operation → Bool} {series : Text}
    (hkeep : ∀ op ∈ ops, op.total? = some (.timing series) → keep op = true) :
    (empty.recordAll (ops.filter keep)).timing? series = (empty.recordAll ops).timing? series := by
  rw [timing?_recordAll_eq, timing?_recordAll_eq, valuesOf, valuesOf, List.filterMap_filter]
  congr 1
  apply List.filterMap_congr
  intro op hop
  by_cases hk : keep op = true
  · rw [if_pos hk]
  · rw [if_neg hk, eq_comm]
    apply Operation.value?_eq_none_iff.mpr
    intro htotal
    exact hk (hkeep op hop htotal)

/-! ## Other orders of a history -/

/-- A recorder is what can be read from it. -/
theorem Ordered.eq_of_readings {s : Recorder} (hr : r.Ordered) (hs : s.Ordered)
    (hcounters : ∀ series, r.counter? series = s.counter? series)
    (htimings : ∀ series, r.timing? series = s.timing? series) : r = s := by
  obtain ⟨counters, timings⟩ := r
  obtain ⟨counters', timings'⟩ := s
  obtain rfl : counters = counters' := hr.counters.eq_of_get?_eq hs.counters hcounters
  obtain rfl : timings = timings' := hr.timings.eq_of_get?_eq hs.timings htimings
  rfl

/-- **Operations on different totals commute.** -/
theorem record_comm (h : r.Ordered) {a b : Operation} (hab : a.Independent b) :
    (r.record a).record b = (r.record b).record a := by
  refine Ordered.eq_of_readings ((h.record a).record b) ((h.record b).record a)
    (fun series => ?_) fun series => ?_
  · rw [counter?_record (h.record a), counter?_record h, counter?_record (h.record b),
      counter?_record h]
    by_cases ha : a.total? = some (.counter series)
    · have hb := hab.not_both ha
      simp only [if_pos ha, if_neg hb]
    · simp only [if_neg ha]
  · rw [timing?_record (h.record a), timing?_record h, timing?_record (h.record b),
      timing?_record h]
    cases ha : a.value? series with
    | none => rfl
    | some x =>
      have htotal : a.total? = some (.timing series) := by
        by_contra hne
        rw [Operation.value?_eq_none_iff.mpr hne] at ha
        exact nomatch ha
      rw [Operation.value?_eq_none_iff.mpr (hab.not_both htotal)]

end Recorder

/-- Histories that differ by exchanges of neighbours that are independent of each other. -/
inductive Reordered : List Operation → List Operation → Prop
  | refl (ops : List Operation) : Reordered ops ops
  | swap {a b : Operation} (before after : List Operation) : a.Independent b →
      Reordered (before ++ a :: b :: after) (before ++ b :: a :: after)
  | trans {ops ops' ops'' : List Operation} : Reordered ops ops' → Reordered ops' ops'' →
      Reordered ops ops''

/-- The order of independent operations leaves no trace. -/
theorem Reordered.recordAll_eq {ops ops' : List Operation} (h : Reordered ops ops') :
    Recorder.empty.recordAll ops = Recorder.empty.recordAll ops' := by
  induction h with
  | refl ops => rfl
  | swap before after hab =>
    have hcomm := Recorder.record_comm (Recorder.ordered_recordAll before) hab
    simp only [Recorder.recordAll, List.foldl_append, List.foldl_cons] at hcomm ⊢
    rw [hcomm]
  | trans _ _ ih ih' => exact ih.trans ih'

namespace Recorder

/-- What changes no total leaves no trace. -/
theorem recordAll_filter_total? (ops : List Operation) :
    empty.recordAll (ops.filter fun op => op.total?.isSome) = empty.recordAll ops := by
  refine Ordered.eq_of_readings (ordered_recordAll _) (ordered_recordAll _)
    (fun series => counter?_filter fun op _ htotal => ?_)
    fun series => timing?_filter fun op _ htotal => ?_
  · rw [htotal, Option.isSome_some]
  · rw [htotal, Option.isSome_some]

/-- **Totals of a history.** After any history of an empty recorder, the counter of a series is
absent if no operation changed it; otherwise it is what it was last set to, zero if it never was,
and what has been added since.  A timing is absent if no value was filed under its series; otherwise
it has the number of the values, and their left folds in the order in which they were filed.
Operations that change no total may be left out, and neighbours that change different totals may be
exchanged any number of times, without a change to what is read.

Files and runs of toolchains are recorded by operations of these kinds (`fileOperation`,
`pipelineOperation`), so histories with them are among these. -/
theorem totals_fold_history (ops : List Operation) :
    (∀ series : Text,
      (empty.recordAll ops).counter? series =
        (if ∃ op ∈ ops, op.total? = some (.counter series) then
          some (lastSet series ops + added series (sinceSet series ops))
        else none) ∧
      ((empty.recordAll ops).timing? series = none ↔
        ∀ op ∈ ops, op.total? ≠ some (.timing series)) ∧
      (empty.recordAll ops).timing? series = Timing.of? (valuesOf series ops)) ∧
    empty.recordAll (ops.filter fun op => op.total?.isSome) = empty.recordAll ops ∧
    ∀ ops' : List Operation, Reordered ops ops' → ∀ series : Text,
      (empty.recordAll ops').counter? series = (empty.recordAll ops).counter? series ∧
      (empty.recordAll ops').timing? series = (empty.recordAll ops).timing? series := by
  refine ⟨fun series => ⟨counter?_recordAll_eq ops series, timing?_recordAll_eq_none_iff,
    timing?_recordAll_eq ops series⟩, recordAll_filter_total? ops, fun ops' h series => ?_⟩
  rw [h.recordAll_eq]
  exact ⟨rfl, rfl⟩

/-- A counter that is set between two increments, and a timing of the same name that is filed
before or after that. -/
theorem totals_fold_history_set_between :
    let before : List Operation := [.increment ⟨['a'], []⟩ 5]
    let set : Operation := .absolute ⟨['a'], []⟩ 7
    let file : Operation := .histogram ⟨['a'], []⟩ 0.5
    let after : List Operation := [.increment ⟨['a'], []⟩ 2, .increment ⟨['b'], []⟩ 0]
    Reordered (before ++ set :: file :: after) (before ++ file :: set :: after) ∧
    (empty.recordAll (before ++ file :: set :: after)).counter? ['a'] = some 9 ∧
    (empty.recordAll (before ++ file :: set :: after)).timing? ['a'] = some (.first 0.5) := by
  intro before set file after
  have hexchanged : Reordered (before ++ set :: file :: after) (before ++ file :: set :: after) :=
    .swap before after (by decide)
  obtain ⟨hread, -, hreordered⟩ := totals_fold_history (before ++ set :: file :: after)
  obtain ⟨hcounter, htiming⟩ := hreordered _ hexchanged ['a']
  rw [hcounter, htiming, (hread ['a']).1, (hread ['a']).2.2]
  exact ⟨hexchanged, by decide, rfl⟩

end Recorder

end Conformance.Metrics
