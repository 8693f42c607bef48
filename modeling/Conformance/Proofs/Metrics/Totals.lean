import Conformance.Proofs.Metrics.History

/-!
# Totals as counts

Over a history in which every increment is by one, a counter holds the number of its increments, a
timing has as its count the number of its values (`counter?_recordAll`, `timing?_recordAll`), and a
series that has none is absent.
-/

namespace Conformance

namespace Metrics

namespace Table

variable {α : Type}

/-- The sum of the values under the names that are chosen. -/
def sumOver (chosen : Text → Bool) : Table Nat → Nat
  | [] => 0
  | (name, value) :: rest => (if chosen name then value else 0) + sumOver chosen rest

theorem sumOver_update (chosen : Text → Bool) (name : Text) (amount : Nat) (t : Table Nat) :
    sumOver chosen (t.update name fun old => old.getD 0 + amount) =
      sumOver chosen t + if chosen name then amount else 0 := by
  induction t with
  | nil => simp [Table.update, sumOver]
  | cons first rest ih =>
    obtain ⟨n, x⟩ := first
    rw [Table.update]
    split
    · next ho =>
      obtain rfl := Text.order_eq_eq_iff.mp ho
      simp only [sumOver, Option.getD_some]
      split <;> omega
    · simp only [sumOver, Option.getD_none, Nat.zero_add]
      omega
    · rw [sumOver, sumOver, ih, Nat.add_assoc]

end Table

/-! ## Histories -/

/-- A count, which is absent if it is zero. -/
def counted (n : Nat) : Option Nat := if n = 0 then none else some n

theorem counted_succ (n : Nat) : counted (n + 1) = some (n + 1) := if_neg n.succ_ne_zero

theorem getD_counted (n : Nat) : (counted n).getD 0 = n := by
  unfold counted
  split
  · next h => exact h.symm
  · rfl

namespace Operation

/-- Whether an operation adds to the counter of a series. -/
def increments (series : Text) : Operation → Bool
  | .increment key _ => key.series = series
  | _ => false

/-- Whether an operation is a value of the timing of a series. -/
def times (series : Text) : Operation → Bool
  | .histogram key _ => key.series = series
  | _ => false

theorem increments_increment (series : Text) (key : Key) (amount : Nat) :
    (increment key amount).increments series = decide (key.series = series) := rfl

/-- Whether an operation adds one to a counter whose name is chosen. -/
def incrementsChosen (chosen : Text → Bool) : Operation → Bool
  | .increment key _ => chosen key.series
  | _ => false

/-- An operation that, if it touches a counter at all, adds one to it. -/
def Single : Operation → Prop
  | .increment _ amount => amount = 1
  | .absolute _ _ => False
  | _ => True

end Operation

namespace Recorder

/-- A counter holds the number of its increments. -/
theorem counter?_recordAll {ops : List Operation} (h : ∀ op ∈ ops, op.Single) (series : Text) :
    (empty.recordAll ops).counter? series = counted (ops.countP (·.increments series)) := by
  induction ops using List.reverseRecOn with
  | nil => rfl
  | append_singleton ops op ih =>
    have hops := ih fun o ho => h o (List.mem_append_left _ ho)
    have hop := h op (List.mem_append_right _ List.mem_cons_self)
    rw [recordAll_concat, counter?_record (ordered_recordAll ops), hops, getD_counted,
      List.countP_append, List.countP_singleton]
    cases op with
    | increment key amount =>
      obtain rfl : amount = 1 := hop
      by_cases hkey : key.series = series
      · simp [Operation.total?, Operation.sets?, Operation.adds?, Operation.increments, hkey,
          counted_succ]
      · simp [Operation.total?, Operation.increments, hkey]
    | absolute key value => exact hop.elim
    | describe => simp [Operation.total?, Operation.increments]
    | histogram key value => simp [Operation.total?, Operation.increments]
    | gauge key value => simp [Operation.total?, Operation.increments]

/-- A timing has as many values as were filed under it. -/
theorem timing?_recordAll (ops : List Operation) (series : Text) :
    ((empty.recordAll ops).timing? series).map (·.count) =
      counted (ops.countP (·.times series)) := by
  have hlength : (valuesOf series ops).length = ops.countP (·.times series) := by
    rw [valuesOf, List.length_filterMap_eq_countP]
    refine List.countP_congr fun op _ => ?_
    cases op with
    | histogram key value => simp [Operation.value?, Operation.times]
    | describe => rfl
    | increment => rfl
    | absolute => rfl
    | gauge => rfl
  rw [timing?_recordAll_eq, ← hlength]
  cases valuesOf series ops with
  | nil => rfl
  | cons x xs => exact (counted_succ xs.length).symm

/-- The counters whose names are chosen sum up to the number of their increments. -/
theorem sumOver_recordAll {ops : List Operation} (h : ∀ op ∈ ops, op.Single)
    (chosen : Text → Bool) :
    (empty.recordAll ops).counters.sumOver chosen = ops.countP (·.incrementsChosen chosen) := by
  induction ops using List.reverseRecOn with
  | nil => rfl
  | append_singleton ops op ih =>
    have hops := ih fun o ho => h o (List.mem_append_left _ ho)
    have hop := h op (List.mem_append_right _ List.mem_cons_self)
    rw [recordAll_concat, List.countP_append, List.countP_singleton, ← hops]
    cases op with
    | increment key amount =>
      obtain rfl : amount = 1 := hop
      exact Table.sumOver_update ..
    | absolute key value => exact hop.elim
    | describe => rfl
    | histogram key value => rfl
    | gauge key value => rfl

end Recorder

end Metrics

end Conformance
