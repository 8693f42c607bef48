import Mathlib.Data.List.Basic
import Conformance.Path.Basic
import Conformance.Proofs.Text.Cuts
import Conformance.Proofs.Text.Decoding

/-!
# What the components of a path tell of it

The names among the components are pieces of the path between separators
(`name_mem_components_iff`).  The pieces of a path that is a text are texts themselves
(`splitAt_encode`), so its components tell which characters it has, but for separators and dots
(`mem_iff_of_ofText`), and two texts that are paths with the same components have the same.
-/

namespace Conformance

@[simp] theorem Name.current_ne_nil : Name.current ≠ [] := nofun

namespace Utf8

/-- A byte below `0x80` is a character of its own and part of no other. -/
theorem mem_utf8EncodeChar_iff {c : Char} {b : UInt8} (hb : b.toNat < 0x80) :
    b ∈ String.utf8EncodeChar c ↔ c.toNat = b.toNat := by
  have hmem : b ∈ String.utf8EncodeChar c ↔ b.toNat ∈ units c.toNat := by
    rw [← map_toNat_utf8EncodeChar]
    exact (List.mem_map_of_injective fun _ _ => UInt8.toNat_inj.mp).symm
  rw [hmem, units]
  split_ifs <;> simp only [List.mem_cons, List.not_mem_nil, or_false] <;> omega

theorem mem_encode_iff {c : Char} {b : UInt8} (hb : b.toNat < 0x80) (hc : c.toNat = b.toNat)
    {t : Text} : b ∈ encode t ↔ c ∈ t := by
  simp only [encode, List.mem_flatMap, mem_utf8EncodeChar_iff hb, ← hc, Char.toNat_inj,
    exists_eq_right]

theorem encode_join (sep : Text) (ts : List Text) :
    encode (Text.join sep ts) = Text.join (encode sep) (ts.map encode) := by
  cases ts with
  | nil => rfl
  | cons t rest =>
    rw [List.map_cons, Text.join, Text.join, encode_append, List.flatMap_map]
    congr 1
    induction rest with
    | nil => rfl
    | cons u rest ih => rw [List.flatMap_cons, List.flatMap_cons, encode_append, encode_append, ih]

end Utf8

namespace Path

open Utf8

variable {p q : Path}

/-! ## Names -/

theorem inner?_eq_name_iff {piece n : Name} :
    inner? piece = some (.name n) ↔
      n = piece ∧ piece ≠ [] ∧ piece ≠ .current ∧ piece ≠ .parent := by
  unfold inner?
  split
  · next h =>
    apply iff_of_false (by simp)
    rintro ⟨-, hne, hdot, -⟩
    exact h.elim hne hdot
  · next h =>
    rw [not_or] at h
    split
    · next hparent => simp [hparent]
    · next hparent =>
      rw [Option.some.injEq, Component.name.injEq, eq_comm]
      simp [h, hparent]

/-- The pieces of a path from its cuts; only the first piece depends on whether there are more. -/
theorem pieces_eq {f : Name} {rest : List Name}
    (h : Text.splitAt separator p.bytes = f :: rest) :
    p.pieces =
      (if f = [] then (if rest = [] then none else some .root)
        else if f = .current then some .current else inner? f, f) ::
        rest.map fun n => (inner? n, n) := by
  unfold pieces
  rw [h]
  by_cases hf : f = []
  · subst hf
    cases rest <;> simp [inner?]
  · simp [hf]

/-- The names among the components are the pieces of the path, but for empty ones and dots. -/
theorem name_mem_components_iff {n : Name} :
    .name n ∈ p.components ↔
      n ∈ Text.splitAt separator p.bytes ∧ n ≠ [] ∧ n ≠ .current ∧ n ≠ .parent := by
  obtain ⟨f, rest, hcut⟩ :=
    List.exists_cons_of_ne_nil (Text.splitAt_ne_nil separator p.bytes)
  have hfront : (if f = [] then (if rest = [] then none else some .root)
      else if f = Name.current then some .current else inner? f) = some (.name n) ↔
        n = f ∧ f ≠ [] ∧ f ≠ Name.current ∧ f ≠ Name.parent := by
    rw [← inner?_eq_name_iff]
    by_cases hf : f = []
    · subst hf
      cases rest <;> simp [inner?]
    · by_cases hdot : f = Name.current <;> simp [hf, hdot, inner?]
  have hrest : (∃ piece ∈ rest.map fun n => (inner? n, n), piece.1 = some (.name n)) ↔
      n ∈ rest ∧ n ≠ [] ∧ n ≠ .current ∧ n ≠ .parent := by
    constructor
    · rintro ⟨piece, hpiece, hname⟩
      obtain ⟨m, hm, rfl⟩ := List.mem_map.mp hpiece
      obtain ⟨rfl, hne⟩ := inner?_eq_name_iff.mp hname
      exact ⟨hm, hne⟩
    · rintro ⟨hn, hne⟩
      exact ⟨_, List.mem_map_of_mem hn, inner?_eq_name_iff.mpr ⟨rfl, hne⟩⟩
  rw [components, List.mem_filterMap, pieces_eq hcut, List.exists_mem_cons_iff, hfront, hrest, hcut,
    List.mem_cons]
  constructor
  · rintro (⟨rfl, hne⟩ | ⟨hn, hne⟩)
    · exact ⟨.inl rfl, hne⟩
    · exact ⟨.inr hn, hne⟩
  · rintro ⟨rfl | hn, hne⟩
    · exact .inl ⟨rfl, hne⟩
    · exact .inr ⟨hn, hne⟩

/-! ## Paths that are texts -/

/-- Whether a path is a text. -/
def IsText (p : Path) : Prop := ofText p.shown = p

instance (p : Path) : Decidable p.IsText := inferInstanceAs (Decidable (_ = _))

@[simp] theorem shown_ofText (t : Text) : (ofText t).shown = t := lossy_encode t

theorem isText_ofText (t : Text) : (ofText t).IsText := congrArg ofText (shown_ofText t)

theorem encode_separator : encode ['/'] = [separator] := by decide

/-- The pieces of a text between slashes are those of its bytes. -/
theorem splitAt_encode (t : Text) :
    Text.splitAt separator (encode t) = (Text.splitAt '/' t).map encode := by
  have hpieces : ∀ n ∈ (Text.splitAt '/' t).map encode, separator ∉ n := by
    intro n hn
    obtain ⟨u, hu, rfl⟩ := List.mem_map.mp hn
    rw [mem_encode_iff (c := '/') (by decide) (by decide)]
    exact Text.not_mem_of_mem_splitAt hu
  have hne : (Text.splitAt '/' t).map encode ≠ [] :=
    fun h => Text.splitAt_ne_nil '/' t (List.map_eq_nil_iff.mp h)
  calc Text.splitAt separator (encode t)
      = Text.splitAt separator (encode (Text.join ['/'] (Text.splitAt '/' t))) := by
        rw [Text.join_splitAt]
    _ = Text.splitAt separator (Text.join [separator] ((Text.splitAt '/' t).map encode)) := by
        rw [encode_join, encode_separator]
    _ = (Text.splitAt '/' t).map encode := Text.splitAt_join hne hpieces

/-- A character other than a slash and a dot stands in a text if it stands in a name among the
components of the path that the text is. -/
theorem mem_iff_of_ofText {t : Text} {c : Char} (hslash : c ≠ '/') (hdot : c ≠ '.') :
    c ∈ t ↔ ∃ u, .name (encode u) ∈ (ofText t).components ∧ c ∈ u := by
  have hpieces : c ∈ t ↔ ∃ u ∈ Text.splitAt '/' t, c ∈ u := by
    rw [← Text.mem_join_iff hslash, Text.join_splitAt]
  have hmem : ∀ u, encode u ∈ Text.splitAt separator (ofText t).bytes ↔ u ∈ Text.splitAt '/' t := by
    intro u
    rw [ofText, splitAt_encode]
    exact List.mem_map_of_injective encode_injective
  rw [hpieces]
  constructor
  · rintro ⟨u, hu, hc⟩
    have hne : ∀ v : Text, c ∉ v → encode u ≠ encode v := by
      intro v hv heq
      exact hv (encode_injective heq ▸ hc)
    refine ⟨u, name_mem_components_iff.mpr ⟨(hmem u).mpr hu, ?_, ?_, ?_⟩, hc⟩
    · exact hne [] List.not_mem_nil
    · exact hne ['.'] (by simpa using hdot)
    · exact hne ['.', '.'] (by simpa using hdot)
  · rintro ⟨u, hu, hc⟩
    exact ⟨u, (hmem u).mp (name_mem_components_iff.mp hu).1, hc⟩

theorem mem_iff_of_same {t u : Text} (h : (ofText t).same (ofText u) = true) {c : Char}
    (hslash : c ≠ '/') (hdot : c ≠ '.') : c ∈ t ↔ c ∈ u := by
  rw [mem_iff_of_ofText hslash hdot, mem_iff_of_ofText hslash hdot, beq_iff_eq.mp h]

end Path

end Conformance
