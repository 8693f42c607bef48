import Mathlib.Order.Bounds.Basic
import Conformance.Proofs.Text.Utf8

/-!
# Which bytes are a text

Bytes are a text with broken bytes behind it, or none (`decodeFrom_cases`).  Since no encoding of a
character goes on as another, that text is the longest that they encode a part of, so the fault
that is reported is the only one that `Fault.Locates` them.

Any bytes are shown as some text, and the encoding of a text as that text (`lossy_encode`).
-/

namespace Conformance.Utf8

/-! ## Reading a text -/

/-- Bytes are a text, or a text and broken bytes behind it. -/
theorem decodeFrom_cases (bytes : List UInt8) :
    ∃ t, (bytes = encode t ∧ ∀ i done, decodeFrom i none done bytes = .ok (done.reverse ++ t)) ∨
      ∃ r length, bytes = encode t ++ r ∧ Broken r length ∧
        ∀ i done, decodeFrom i none done bytes = .error ⟨i + (encode t).length, length⟩ := by
  by_cases hne : bytes = []
  · subst hne
    exact ⟨[], .inl ⟨rfl, fun i done => by rw [List.append_nil]; rfl⟩⟩
  obtain ⟨c, r, hbytes, hread⟩ | ⟨length, hbroken, hread⟩ := decodeFrom_none_cases hne
  · have hlt : r.length < bytes.length := by
      have hpos := List.length_pos_iff.mpr (String.utf8EncodeChar_ne_nil (c := c))
      rw [hbytes, List.length_append]
      omega
    obtain ⟨t, ⟨rfl, heq⟩ | ⟨r, length, rfl, hbroken, heq⟩⟩ := decodeFrom_cases r
    · refine ⟨c :: t, .inl ⟨by rw [hbytes, encode_cons], fun i done => ?_⟩⟩
      rw [hread, heq, List.reverse_cons, List.append_assoc]
      rfl
    · refine ⟨c :: t, .inr ⟨r, length, ?_, hbroken, fun i done => ?_⟩⟩
      · rw [hbytes, encode_cons, List.append_assoc]
      · rw [hread, heq, encode_cons, List.length_append, Nat.add_assoc]
  · refine ⟨[], .inr ⟨bytes, length, rfl, hbroken, fun i done => ?_⟩⟩
    rw [hread]
    rfl
termination_by bytes.length

/-! ## Where broken bytes are broken -/

theorem Begins.no_character {bytes : List UInt8} (h : Begins bytes) (c : Char) :
    ¬ String.utf8EncodeChar c <+: bytes := by
  obtain ⟨d, hd, hne⟩ := h
  intro hc
  obtain rfl := prefix_utf8EncodeChar_inj (hc.trans hd)
  exact hne (hd.eq_of_length_le hc.length_le)

/-- A beginning of a character within parted bytes ends in front of the byte that parts them. -/
theorem length_le_of_parted {p q r : List UInt8} {x : UInt8}
    (hx : ∀ c, ¬ p ++ [x] <+: String.utf8EncodeChar c) {c : Char} (hq : q <+: p ++ x :: r)
    (hc : q <+: String.utf8EncodeChar c) : q.length ≤ p.length := by
  by_contra hlt
  refine hx c (List.IsPrefix.trans ?_ hc)
  rw [List.append_cons] at hq
  refine List.prefix_of_prefix_length_le (List.prefix_append ..) hq ?_
  rw [List.length_append, List.length_singleton]
  omega

namespace Broken

variable {bytes : List UInt8} {length : Option Nat}

theorem no_character (h : Broken bytes length) (c : Char) :
    ¬ String.utf8EncodeChar c <+: bytes := by
  cases h with
  | short _ hbegins => exact hbegins.no_character c
  | @parted p r x hbegins hx =>
    intro hc
    have hle := length_le_of_parted hx hc List.prefix_rfl
    exact hbegins.no_character c (List.prefix_of_prefix_length_le hc (List.prefix_append ..) hle)

theorem eq_none_iff (h : Broken bytes length) : length = none ↔ Begins bytes := by
  cases h with
  | short _ hbegins => exact iff_of_true rfl hbegins
  | @parted p r x _ hx =>
    refine iff_of_false (Option.some_ne_none _) ?_
    rintro ⟨c, hc, -⟩
    have hle := length_le_of_parted hx List.prefix_rfl hc
    rw [List.length_append, List.length_cons] at hle
    omega

end Broken

/-- The lengths of the beginnings of bytes that have a property. -/
def prefixLengths (P : List UInt8 → Prop) (bytes : List UInt8) : Set Nat :=
  {n | ∃ p, p <+: bytes ∧ P p ∧ p.length = n}

theorem Broken.eq_some {bytes : List UInt8} {n : Nat} (h : Broken bytes (some n)) :
    ∃ m, IsGreatest (prefixLengths Begins bytes) m ∧ n = max 1 m := by
  cases h with
  | @parted p r x hbegins hx =>
    refine ⟨p.length, ⟨⟨p, List.prefix_append .., hbegins, rfl⟩, ?_⟩, rfl⟩
    rintro _ ⟨q, hq, ⟨c, hc, -⟩, rfl⟩
    exact length_le_of_parted hx hq hc

/-- Bytes that are the encoding of a text. -/
def Valid (bytes : List UInt8) : Prop := ∃ t, encode t = bytes

/-- A fault that says where and how bytes fail to encode a text: they are one up to the index and
no further.  They are too short if what is left of them begins a character; else the fault counts
the bytes there that begin one, and at least one byte. -/
structure Fault.Locates (f : Fault) (bytes : List UInt8) : Prop where
  invalid : ¬ Valid bytes
  index : IsGreatest (prefixLengths Valid bytes) f.index
  short : f.length = none ↔ Begins (bytes.drop f.index)
  length : ∀ n ∈ f.length, ∃ m, IsGreatest (prefixLengths Begins (bytes.drop f.index)) m ∧
    n = max 1 m

theorem Fault.Locates.unique {f g : Fault} {bytes : List UInt8} (hf : f.Locates bytes)
    (hg : g.Locates bytes) : f = g := by
  obtain ⟨i, l⟩ := f
  obtain ⟨j, m⟩ := g
  obtain rfl : i = j := hf.index.unique hg.index
  congr 1
  cases l with
  | none => exact (hg.short.mpr (hf.short.mp rfl)).symm
  | some n =>
    cases m with
    | none => exact hf.short.mpr (hg.short.mp rfl)
    | some k =>
      obtain ⟨a, ha, rfl⟩ := hf.length n rfl
      obtain ⟨b, hb, rfl⟩ := hg.length k rfl
      rw [ha.unique hb]

theorem Broken.ne_nil {bytes : List UInt8} {length : Option Nat} (h : Broken bytes length) :
    bytes ≠ [] := by
  cases h with
  | short hne => exact hne
  | parted => exact List.append_ne_nil_of_right_ne_nil _ (List.cons_ne_nil _ _)

theorem Broken.locates {t : Text} {r : List UInt8} {length : Option Nat}
    (h : Broken r length) : Fault.Locates ⟨(encode t).length, length⟩ (encode t ++ r) := by
  have hle : ∀ u, encode u <+: encode t ++ r → (encode u).length ≤ (encode t).length := by
    intro u hu
    obtain ⟨v, rfl⟩ := prefix_of_encode_append h.no_character hu
    rw [encode, encode, List.flatMap_append, List.length_append]
    exact Nat.le_add_right _ _
  constructor
  · rintro ⟨u, hu⟩
    have hlen := hle u ⟨[], by rw [List.append_nil, hu]⟩
    have hpos := List.length_pos_iff.mpr h.ne_nil
    rw [hu, List.length_append] at hlen
    omega
  · refine ⟨⟨encode t, List.prefix_append .., ⟨t, rfl⟩, rfl⟩, ?_⟩
    rintro _ ⟨_, hu, ⟨u, rfl⟩, rfl⟩
    exact hle u hu
  · rw [List.drop_left]
    exact h.eq_none_iff
  · intro n hn
    rw [List.drop_left]
    exact Broken.eq_some (hn ▸ h)

theorem decode?_eq_ok_iff {bytes : List UInt8} {t : Text} :
    decode? bytes = .ok t ↔ encode t = bytes := by
  obtain ⟨u, ⟨rfl, hread⟩ | ⟨r, length, rfl, hbroken, hread⟩⟩ := decodeFrom_cases bytes
  · rw [decode?, hread, Except.ok.injEq, encode_injective.eq_iff, eq_comm]
    rfl
  · rw [decode?, hread]
    exact iff_of_false (fun h => nomatch h) fun h => hbroken.locates.invalid ⟨t, h⟩

theorem decode?_eq_error_iff {bytes : List UInt8} {f : Fault} :
    decode? bytes = .error f ↔ f.Locates bytes := by
  obtain ⟨u, ⟨rfl, hread⟩ | ⟨r, length, rfl, hbroken, hread⟩⟩ := decodeFrom_cases bytes
  · rw [decode?, hread]
    exact iff_of_false (fun h => nomatch h) fun h => h.invalid ⟨u, rfl⟩
  · rw [decode?, hread, Nat.zero_add, Except.error.injEq]
    constructor
    · rintro rfl
      exact hbroken.locates
    · exact hbroken.locates.unique

/-- The wording of a fault, by what it says of the bytes. -/
theorem Fault.Locates.message {f : Fault} {bytes : List UInt8} (h : f.Locates bytes) :
    Begins (bytes.drop f.index) ∧
        f.message = "incomplete utf-8 byte sequence from index ".toList ++ Text.ofNat f.index ∨
      ¬ Begins (bytes.drop f.index) ∧
        ∃ m, IsGreatest (prefixLengths Begins (bytes.drop f.index)) m ∧
          f.message = "invalid utf-8 sequence of ".toList ++ Text.ofNat (max 1 m) ++
            " bytes from index ".toList ++ Text.ofNat f.index := by
  obtain ⟨i, l⟩ := f
  cases l with
  | none => exact .inl ⟨h.short.mp rfl, rfl⟩
  | some n =>
    obtain ⟨m, hm, rfl⟩ := h.length n rfl
    exact .inr ⟨fun hb => Option.some_ne_none _ (h.short.mpr hb), m, hm, rfl⟩

/-! ## Bytes that are shown -/

theorem opening_of_lt {b : UInt8} (hb : b.toNat < 0x80) :
    opening b = ([Char.ofNat b.toNat], none) := by
  rw [opening, if_pos hb]

theorem opening_of_begin? {b : UInt8} {s : Sequence} (hb : 0x80 ≤ b.toNat)
    (hs : Sequence.begin? b.toNat = some s) : opening b = ([], some s) := by
  simp only [opening, if_neg (Nat.not_lt.mpr hb), hs]

theorem resume_of_admits {s : Sequence} {b : UInt8} (hb : s.Admits b) :
    resume s b =
      if s.owed ≤ 1 then ([Char.ofNat (s.push b.toNat).value], none)
      else ([], some (s.push b.toNat)) := by
  have hlast : (s.push b.toNat).owed = 0 ↔ s.owed ≤ 1 := Nat.sub_eq_zero_iff_le
  have hin : s.low ≤ b.toNat ∧ b.toNat ≤ s.high := hb
  simp only [resume, if_pos hin, hlast]

/-- A sequence that is completed is shown as its character. -/
theorem lossyFrom_of_completes {s : Sequence} {q : List UInt8} {v : Nat} (h : s.Completes q v)
    (r : List UInt8) : lossyFrom (some s) (q ++ r) = Char.ofNat v :: lossyFrom none r := by
  induction h with
  | last hs hb =>
    simp only [List.singleton_append, lossyFrom, Option.elim, resume_of_admits hb, if_pos hs]
  | next hs hb _ ih =>
    simp only [List.cons_append, lossyFrom, Option.elim, resume_of_admits hb,
      if_neg (Nat.not_le.mpr hs), List.nil_append]
    exact ih

/-- One character in front. -/
theorem lossyFrom_utf8EncodeChar_append (c : Char) (r : List UInt8) :
    lossyFrom none (String.utf8EncodeChar c ++ r) = c :: lossyFrom none r := by
  obtain ⟨b, q, hc⟩ := List.exists_cons_of_ne_nil (String.utf8EncodeChar_ne_nil (c := c))
  rw [hc, List.cons_append]
  obtain ⟨hlt, rfl, heq⟩ | ⟨hle, s, hs, hq⟩ :=
    Sequence.eq_or_completes_of_utf8EncodeChar hc
  · simp only [lossyFrom, Option.elim, opening_of_lt hlt, ← heq, Char.ofNat_toNat]
    rfl
  · simp only [lossyFrom, Option.elim, opening_of_begin? hle hs, List.nil_append,
      lossyFrom_of_completes hq, Char.ofNat_toNat]

/-- **Showing.** The encoding of a text is shown as the text. -/
theorem lossy_encode (t : Text) : lossy (encode t) = t := by
  induction t with
  | nil => rfl
  | cons c r ih => rw [encode_cons, lossy, lossyFrom_utf8EncodeChar_append, ← lossy, ih]

end Conformance.Utf8
