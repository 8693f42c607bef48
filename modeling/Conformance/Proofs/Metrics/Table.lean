import Mathlib.Data.List.Perm.Basic
import Conformance.Metrics.Recorder
import Conformance.Proofs.Text.Order

/-!
# Ordered tables

A table that has been updated any number of times is `Ordered` by its names, so that a look-up finds
what the last update left there (`get?_update`).  An ordered table is nothing but what look-ups find
in it (`get?_eq_some_iff`): two that agree on every name are the same table
(`Ordered.eq_of_get?_eq`).
-/

namespace Conformance.Metrics.Table

variable {α : Type}

/-- The names of a table stand in their order, each once. -/
def Ordered (t : Table α) : Prop := t.Pairwise fun a b => a.1 < b.1

theorem mem_update {name : Text} {f : Option α → α} {t : Table α} {entry : Text × α}
    (h : entry ∈ t.update name f) : entry.1 = name ∨ entry ∈ t := by
  induction t with
  | nil => exact .inl (by rw [List.mem_singleton.mp h])
  | cons first rest ih =>
    obtain ⟨n, x⟩ := first
    rw [update] at h
    split at h
    · next ho =>
      rcases List.mem_cons.mp h with rfl | h
      · exact .inl (Text.order_eq_eq_iff.mp ho).symm
      · exact .inr (List.mem_cons_of_mem _ h)
    · rcases List.mem_cons.mp h with rfl | h
      · exact .inl rfl
      · exact .inr h
    · rcases List.mem_cons.mp h with rfl | h
      · exact .inr List.mem_cons_self
      · exact (ih h).imp_right (List.mem_cons_of_mem _)

theorem Ordered.update {t : Table α} (h : t.Ordered) (name : Text) (f : Option α → α) :
    (t.update name f).Ordered := by
  induction t with
  | nil => exact List.pairwise_singleton _ _
  | cons first rest ih =>
    obtain ⟨n, x⟩ := first
    obtain ⟨hfirst, hrest⟩ := List.pairwise_cons.mp h
    rw [Table.update]
    split
    · exact List.pairwise_cons.mpr ⟨hfirst, hrest⟩
    · next ho =>
      have hlt := Text.order_eq_lt_iff.mp ho
      refine List.pairwise_cons.mpr ⟨fun entry hentry => ?_, h⟩
      rcases List.mem_cons.mp hentry with rfl | hentry
      · exact hlt
      · exact hlt.trans (hfirst entry hentry)
    · next ho =>
      refine List.pairwise_cons.mpr ⟨fun entry hentry => ?_, ih hrest⟩
      rcases mem_update hentry with heq | hentry
      · exact heq ▸ Text.order_eq_gt_iff.mp ho
      · exact hfirst entry hentry

theorem get?_eq_none_of_lt {t : Table α} {name : Text} (h : ∀ entry ∈ t, name < entry.1) :
    t.get? name = none := by
  induction t with
  | nil => rfl
  | cons first rest ih =>
    rw [get?, if_neg (h first List.mem_cons_self).ne',
      ih fun entry hentry => h entry (List.mem_cons_of_mem _ hentry)]

/-- An update shows under its name and nowhere else. -/
theorem get?_update {t : Table α} (h : t.Ordered) (name : Text) (f : Option α → α) (other : Text) :
    (t.update name f).get? other =
      if name = other then some (f (t.get? name)) else t.get? other := by
  induction t with
  | nil => rfl
  | cons first rest ih =>
    obtain ⟨n, x⟩ := first
    obtain ⟨hfirst, hrest⟩ := List.pairwise_cons.mp h
    rw [Table.update]
    split
    · next ho =>
      obtain rfl := Text.order_eq_eq_iff.mp ho
      by_cases hname : name = other <;> simp [get?, hname]
    · next ho =>
      have hlt := Text.order_eq_lt_iff.mp ho
      have hnone : get? ((n, x) :: rest) name = none := by
        apply get?_eq_none_of_lt
        intro entry hentry
        rcases List.mem_cons.mp hentry with rfl | hentry
        · exact hlt
        · exact hlt.trans (hfirst entry hentry)
      rw [get?, hnone]
    · next ho =>
      have hne : n ≠ name := (Text.order_eq_gt_iff.mp ho).ne
      rw [get?, get?, get?, ih hrest, if_neg hne]
      by_cases hother : n = other
      · simp [hother, hother ▸ hne.symm]
      · simp [hother]

/-- **What a table holds** under a name is what a look-up finds there. -/
theorem get?_eq_some_iff {t : Table α} (h : t.Ordered) {name : Text} {x : α} :
    t.get? name = some x ↔ (name, x) ∈ t := by
  induction t with
  | nil => simp [get?]
  | cons first rest ih =>
    obtain ⟨n, y⟩ := first
    obtain ⟨hfirst, hrest⟩ := List.pairwise_cons.mp h
    rw [get?, List.mem_cons, Prod.mk.injEq]
    by_cases hname : n = name
    · subst hname
      rw [if_pos rfl, Option.some.injEq, eq_comm]
      -- no other entry has the name of the first
      have hnot : (n, x) ∉ rest := by
        intro hmem
        exact lt_irrefl n (hfirst (n, x) hmem)
      simp [hnot]
    · rw [if_neg hname, ih hrest]
      simp [Ne.symm hname]

theorem Ordered.nodup {t : Table α} (h : t.Ordered) : t.Nodup := by
  refine List.Pairwise.imp ?_ h
  rintro entry _ hlt rfl
  exact lt_irrefl entry.1 hlt

/-- **Uniqueness.** Two ordered tables in which every look-up finds the same are equal. -/
theorem Ordered.eq_of_get?_eq {t u : Table α} (ht : t.Ordered) (hu : u.Ordered)
    (h : ∀ name, t.get? name = u.get? name) : t = u := by
  have hmem : ∀ entry, entry ∈ t ↔ entry ∈ u := by
    rintro ⟨name, x⟩
    rw [← get?_eq_some_iff ht, ← get?_eq_some_iff hu, h]
  have hperm : t.Perm u := (List.perm_ext_iff_of_nodup ht.nodup hu.nodup).mpr hmem
  exact hperm.eq_of_pairwise (fun _ _ _ _ hlt hgt => absurd hgt (lt_asymm hlt)) ht hu

end Conformance.Metrics.Table
