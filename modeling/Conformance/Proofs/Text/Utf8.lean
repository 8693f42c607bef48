import Mathlib.Tactic.SplitIfs
import Conformance.Text.Utf8

/-!
# Characters in UTF-8

`decodeFrom` reads a character as a `Sequence`: the first byte says how many bytes are owed and
where the second of them may lie.  A sequence is completed (`Sequence.Completes`) by exactly the
bytes that make it the encoding of a character; this is read off the first byte in both directions
(`eq_or_completes_of_utf8EncodeChar`, `utf8EncodeChar_of_completes`) and holds one byte after the
other from there.

Bytes then either have a character in front, which `decodeFrom` reads, or they are `Broken`, and it
reports how (`decodeFrom_none_cases`).
-/

namespace Conformance.Utf8

theorem encode_cons (c : Char) (t : Text) : encode (c :: t) = String.utf8EncodeChar c ++ encode t :=
  List.flatMap_cons

theorem encode_append (a b : Text) : encode (a ++ b) = encode a ++ encode b :=
  List.flatMap_append

/-- The bytes of a scalar value as numbers. -/
def units (v : Nat) : List Nat :=
  if v < 0x80 then [v]
  else if v < 0x800 then [0xC0 + v / 64, 0x80 + v % 64]
  else if v < 0x10000 then [0xE0 + v / 4096, 0x80 + v / 64 % 64, 0x80 + v % 64]
  else [0xF0 + v / 262144, 0x80 + v / 4096 % 64, 0x80 + v / 64 % 64, 0x80 + v % 64]

theorem toNat_lt (c : Char) : c.toNat < 0x110000 := by
  rcases c.valid with h | h
  · exact Nat.lt_trans h (by decide)
  · exact h.2

theorem map_toNat_utf8EncodeChar (c : Char) :
    (String.utf8EncodeChar c).map UInt8.toNat = units c.toNat := by
  have hv : c.toNat < 0x110000 := toNat_lt c
  have hval : c.val.toNat = c.toNat := rfl
  simp only [String.utf8EncodeChar, hval, units]
  generalize c.toNat = v at hv
  split_ifs <;>
    simp only [List.map_cons, List.map_nil, UInt8.toNat_ofNat', List.cons.injEq, and_true] <;>
    omega

namespace Sequence

/-- Whether a byte may go on with a sequence. -/
def Admits (s : Sequence) (b : UInt8) : Prop := s.low ≤ b.toNat ∧ b.toNat ≤ s.high

instance (s : Sequence) (b : UInt8) : Decidable (s.Admits b) :=
  inferInstanceAs (Decidable (_ ∧ _))

/-- Bytes that complete a sequence, and the number that the bits of the whole make. -/
inductive Completes : Sequence → List UInt8 → Nat → Prop
  | last {s : Sequence} {b : UInt8} : s.owed ≤ 1 → s.Admits b →
      Completes s [b] (s.push b.toNat).value
  | next {s : Sequence} {b : UInt8} {q : List UInt8} {v : Nat} : 1 < s.owed → s.Admits b →
      Completes (s.push b.toNat) q v → Completes s (b :: q) v

theorem completes_iff_of_owed_le {s : Sequence} (h : s.owed ≤ 1) {q : List UInt8} {v : Nat} :
    s.Completes q v ↔ ∃ b, q = [b] ∧ s.Admits b ∧ v = (s.push b.toNat).value := by
  constructor
  · intro hq
    cases hq with
    | last _ hb => exact ⟨_, rfl, hb, rfl⟩
    | next hlt => omega
  · rintro ⟨b, hq, hb, hv⟩
    rw [hq, hv]
    exact .last h hb

theorem completes_iff_of_lt_owed {s : Sequence} (h : 1 < s.owed) {q : List UInt8} {v : Nat} :
    s.Completes q v ↔ ∃ b r, q = b :: r ∧ s.Admits b ∧ (s.push b.toNat).Completes r v := by
  constructor
  · intro hq
    cases hq with
    | last hle => omega
    | next _ hb hr => exact ⟨_, _, rfl, hb, hr⟩
  · rintro ⟨b, r, rfl, hb, hr⟩
    exact .next h hb hr

theorem completes_one {taken low high value : Nat} {q : List UInt8} {v : Nat} :
    (Sequence.mk taken 1 low high value).Completes q v ↔
      ∃ x, q = [x] ∧ (low ≤ x.toNat ∧ x.toNat ≤ high) ∧ v = value * 64 + (x.toNat - 0x80) :=
  completes_iff_of_owed_le (Nat.le_refl 1)

theorem completes_two {taken low high value : Nat} {q : List UInt8} {v : Nat} :
    (Sequence.mk taken 2 low high value).Completes q v ↔
      ∃ x y, q = [x, y] ∧ (low ≤ x.toNat ∧ x.toNat ≤ high) ∧ (0x80 ≤ y.toNat ∧ y.toNat ≤ 0xBF) ∧
        v = (value * 64 + (x.toNat - 0x80)) * 64 + (y.toNat - 0x80) := by
  rw [completes_iff_of_lt_owed Nat.one_lt_two]
  constructor
  · rintro ⟨x, r, rfl, hx, hr⟩
    obtain ⟨y, rfl, hy, hv⟩ := completes_one.mp hr
    exact ⟨x, y, rfl, hx, hy, hv⟩
  · rintro ⟨x, y, rfl, hx, hy, hv⟩
    exact ⟨x, [y], rfl, hx, completes_one.mpr ⟨y, rfl, hy, hv⟩⟩

theorem completes_three {taken low high value : Nat} {q : List UInt8} {v : Nat} :
    (Sequence.mk taken 3 low high value).Completes q v ↔
      ∃ x y z, q = [x, y, z] ∧ (low ≤ x.toNat ∧ x.toNat ≤ high) ∧
        (0x80 ≤ y.toNat ∧ y.toNat ≤ 0xBF) ∧ (0x80 ≤ z.toNat ∧ z.toNat ≤ 0xBF) ∧
        v = ((value * 64 + (x.toNat - 0x80)) * 64 + (y.toNat - 0x80)) * 64 + (z.toNat - 0x80) := by
  rw [completes_iff_of_lt_owed (Nat.lt_of_sub_eq_succ rfl)]
  constructor
  · rintro ⟨x, r, rfl, hx, hr⟩
    obtain ⟨y, z, rfl, hy, hz, hv⟩ := completes_two.mp hr
    exact ⟨x, y, z, rfl, hx, hy, hz, hv⟩
  · rintro ⟨x, y, z, rfl, hx, hy, hz, hv⟩
    exact ⟨x, [y, z], rfl, hx, completes_two.mpr ⟨y, z, rfl, hy, hz, hv⟩⟩

/-- The three lengths of a sequence, by its first byte. -/
theorem begin?_eq_some_iff {b : Nat} {s : Sequence} :
    begin? b = some s ↔
      (0xC2 ≤ b ∧ b ≤ 0xDF ∧ s = ⟨1, 1, 0x80, 0xBF, b - 0xC0⟩) ∨
      (0xE0 ≤ b ∧ b ≤ 0xEF ∧
        s = ⟨1, 2, if b = 0xE0 then 0xA0 else 0x80, if b = 0xED then 0x9F else 0xBF, b - 0xE0⟩) ∨
      (0xF0 ≤ b ∧ b ≤ 0xF4 ∧
        s = ⟨1, 3, if b = 0xF0 then 0x90 else 0x80, if b = 0xF4 then 0x8F else 0xBF,
          b - 0xF0⟩) := by
  unfold begin?
  split_ifs <;> simp only [Option.some.injEq, false_iff] <;> grind

/-- The first byte of a character decides which bytes follow it, and what number they make. -/
theorem eq_or_completes_of_utf8EncodeChar {c : Char} {b : UInt8} {q : List UInt8}
    (h : String.utf8EncodeChar c = b :: q) :
    (b.toNat < 0x80 ∧ q = [] ∧ c.toNat = b.toNat) ∨
      0x80 ≤ b.toNat ∧ ∃ s, begin? b.toNat = some s ∧ s.Completes q c.toNat := by
  have hmap := map_toNat_utf8EncodeChar c
  have hvalid : c.toNat < 0xD800 ∨ 0xDFFF < c.toNat ∧ c.toNat < 0x110000 := c.valid
  rw [h, List.map_cons] at hmap
  unfold units at hmap
  split_ifs at hmap with h₁ h₂ h₃
  · obtain ⟨hb, hq⟩ := List.cons.inj hmap
    exact .inl ⟨by omega, List.map_eq_nil_iff.mp hq, hb.symm⟩
  · obtain ⟨hb, hq⟩ := List.cons.inj hmap
    obtain ⟨x, rfl, hx⟩ := List.map_eq_singleton_iff.mp hq
    refine .inr ⟨by omega, _, begin?_eq_some_iff.mpr (.inl ⟨by omega, by omega, rfl⟩), ?_⟩
    exact completes_one.mpr ⟨x, rfl, by omega, by omega⟩
  · obtain ⟨hb, hq⟩ := List.cons.inj hmap
    obtain ⟨x, r, rfl, hx, hr⟩ := List.map_eq_cons_iff.mp hq
    obtain ⟨y, rfl, hy⟩ := List.map_eq_singleton_iff.mp hr
    refine .inr ⟨by omega, _, begin?_eq_some_iff.mpr (.inr (.inl ⟨by omega, by omega, rfl⟩)), ?_⟩
    refine completes_two.mpr ⟨x, y, rfl, ?_, by omega, by omega⟩
    split_ifs <;> omega
  · obtain ⟨hb, hq⟩ := List.cons.inj hmap
    obtain ⟨x, r, rfl, hx, hr⟩ := List.map_eq_cons_iff.mp hq
    obtain ⟨y, r, rfl, hy, hr⟩ := List.map_eq_cons_iff.mp hr
    obtain ⟨z, rfl, hz⟩ := List.map_eq_singleton_iff.mp hr
    refine .inr ⟨by omega, _, begin?_eq_some_iff.mpr (.inr (.inr ⟨by omega, by omega, rfl⟩)), ?_⟩
    refine completes_three.mpr ⟨x, y, z, rfl, ?_, by omega, by omega, by omega⟩
    split_ifs <;> omega

theorem utf8EncodeChar_ofNat {v : Nat} (hv : v.isValidChar) {bytes : List UInt8}
    (h : bytes.map UInt8.toNat = units v) : String.utf8EncodeChar (Char.ofNat v) = bytes := by
  have hc : (Char.ofNat v).toNat = v := by
    rw [Char.ofNat, dif_pos hv]
    rfl
  have hmap := map_toNat_utf8EncodeChar (Char.ofNat v)
  rw [hc, ← h] at hmap
  exact (List.map_inj_right fun _ _ => UInt8.toNat_inj.mp).mp hmap

/-- A byte below `0x80` is a character. -/
theorem utf8EncodeChar_of_lt {b : UInt8} (hb : b.toNat < 0x80) :
    String.utf8EncodeChar (Char.ofNat b.toNat) = [b] := by
  refine utf8EncodeChar_ofNat (.inl (by omega)) ?_
  rw [units, if_pos hb]
  rfl

/-- A first byte and the bytes that complete its sequence are a character. -/
theorem utf8EncodeChar_of_completes {b : UInt8} {s : Sequence} {q : List UInt8} {v : Nat}
    (hs : begin? b.toNat = some s) (hq : s.Completes q v) :
    String.utf8EncodeChar (Char.ofNat v) = b :: q := by
  obtain ⟨hlow, hhigh, rfl⟩ | ⟨hlow, hhigh, rfl⟩ | ⟨hlow, hhigh, rfl⟩ := begin?_eq_some_iff.mp hs
  · obtain ⟨x, rfl, hx, hv⟩ := completes_one.mp hq
    refine utf8EncodeChar_ofNat (.inl (by omega)) ?_
    rw [units, if_neg (by omega), if_pos (by omega)]
    simp only [List.map_cons, List.map_nil, List.cons.injEq, and_true]
    omega
  · obtain ⟨x, y, rfl, hx, hy, hv⟩ := completes_two.mp hq
    -- the bounds of the second byte keep out the overlong forms and the surrogates
    have hrange : (0x800 ≤ v ∧ v < 0x10000) ∧ (v < 0xD800 ∨ 0xDFFF < v) := by
      split_ifs at hx <;> omega
    refine utf8EncodeChar_ofNat (hrange.2.imp_right fun h => ⟨h, by omega⟩) ?_
    rw [units, if_neg (by omega), if_neg (by omega), if_pos (by omega)]
    simp only [List.map_cons, List.map_nil, List.cons.injEq, and_true]
    split_ifs at hx <;> omega
  · obtain ⟨x, y, z, rfl, hx, hy, hz, hv⟩ := completes_three.mp hq
    have hrange : 0x10000 ≤ v ∧ v < 0x110000 := by
      split_ifs at hx <;> omega
    refine utf8EncodeChar_ofNat (.inr ⟨by omega, hrange.2⟩) ?_
    rw [units, if_neg (by omega), if_neg (by omega), if_neg (by omega)]
    simp only [List.map_cons, List.map_nil, List.cons.injEq, and_true]
    split_ifs at hx <;> omega

/-- A sequence that can be completed. -/
structure Open (s : Sequence) : Prop where
  owed : 0 < s.owed
  low_le_high : s.low ≤ s.high
  high_lt : s.high < 256

theorem open_of_begin? {b : Nat} {s : Sequence} (h : begin? b = some s) : s.Open := by
  unfold begin? at h
  split_ifs at h <;> cases h <;> constructor <;> simp

theorem taken_of_begin? {b : Nat} {s : Sequence} (h : begin? b = some s) : s.taken = 1 := by
  unfold begin? at h
  split_ifs at h <;> cases h <;> rfl

theorem open_push {s : Sequence} (h : 1 < s.owed) (b : Nat) : (s.push b).Open :=
  ⟨Nat.sub_pos_of_lt h, by simp [push], by simp [push]⟩

theorem Open.exists_admits {s : Sequence} (h : s.Open) : ∃ b, s.Admits b := by
  have hlow : (UInt8.ofNat s.low).toNat = s.low :=
    UInt8.toNat_ofNat_of_lt' (Nat.lt_of_le_of_lt h.low_le_high h.high_lt)
  exact ⟨.ofNat s.low, Nat.le_of_eq hlow.symm, Nat.le_trans (Nat.le_of_eq hlow) h.low_le_high⟩

theorem Open.exists_completes {s : Sequence} (h : s.Open) : ∃ q v, s.Completes q v := by
  obtain ⟨b, hb⟩ := h.exists_admits
  by_cases hs : 1 < s.owed
  · obtain ⟨q, v, hq⟩ := (open_push hs b.toNat).exists_completes
    exact ⟨b :: q, v, .next hs hb hq⟩
  · exact ⟨[b], _, .last (Nat.le_of_not_lt hs) hb⟩
termination_by s.owed
decreasing_by exact Nat.sub_lt h.owed Nat.one_pos

theorem Completes.ne_nil {s : Sequence} {q : List UInt8} {v : Nat} (h : s.Completes q v) :
    q ≠ [] := by
  cases h <;> exact List.cons_ne_nil _ _

/-- Bytes that go on with a sequence and leave it unfinished. -/
def Awaits (s : Sequence) (p : List UInt8) : Prop := ∃ q v, q ≠ [] ∧ s.Completes (p ++ q) v

theorem Open.awaits_nil {s : Sequence} (h : s.Open) : s.Awaits [] :=
  let ⟨q, v, hq⟩ := h.exists_completes
  ⟨q, v, hq.ne_nil, hq⟩

theorem Awaits.cons {s : Sequence} {b : UInt8} {p : List UInt8} (hs : 1 < s.owed)
    (hb : s.Admits b) : (s.push b.toNat).Awaits p → s.Awaits (b :: p)
  | ⟨q, v, hne, hq⟩ => ⟨q, v, hne, .next hs hb hq⟩

end Sequence

open Sequence

/-! ## Reading one character -/

theorem decodeFrom_some_cons (i : Nat) (s : Sequence) (done : Text) (b : UInt8) (r : List UInt8) :
    decodeFrom i (some s) done (b :: r) =
      if s.Admits b then
        if s.owed ≤ 1 then
          decodeFrom (i + 1) none (Char.ofNat (s.push b.toNat).value :: done) r
        else decodeFrom (i + 1) (some (s.push b.toNat)) done r
      else .error ⟨i - s.taken, some s.taken⟩ := by
  have hlast : (s.push b.toNat).owed = 0 ↔ s.owed ≤ 1 := Nat.sub_eq_zero_iff_le
  simp only [decodeFrom, hlast]
  rfl

theorem decodeFrom_of_completes {s : Sequence} {q : List UInt8} {v : Nat}
    (h : s.Completes q v) (i : Nat) (done : Text) (r : List UInt8) :
    decodeFrom i (some s) done (q ++ r) =
      decodeFrom (i + q.length) none (Char.ofNat v :: done) r := by
  induction h generalizing i with
  | last hs hb => rw [List.singleton_append, decodeFrom_some_cons, if_pos hb, if_pos hs]; rfl
  | next hs hb _ ih =>
    rw [List.cons_append, decodeFrom_some_cons, if_pos hb, if_neg (Nat.not_le.mpr hs), ih,
      List.length_cons, Nat.add_assoc, Nat.add_comm 1]

/-- A sequence is completed by the bytes behind it, or they end within it, or a byte comes that
does not go on with it. -/
theorem Sequence.Open.decodeFrom_cases {s : Sequence} (h : s.Open) (bytes : List UInt8) :
    (∃ q v r, bytes = q ++ r ∧ s.Completes q v) ∨
    (s.Awaits bytes ∧
      ∀ i done, decodeFrom i (some s) done bytes = .error ⟨i - s.taken, none⟩) ∨
    ∃ p x r, bytes = p ++ x :: r ∧ s.Awaits p ∧ (∀ q v, ¬ s.Completes (p ++ x :: q) v) ∧
      ∀ i done, decodeFrom i (some s) done bytes =
        .error ⟨i - s.taken, some (s.taken + p.length)⟩ := by
  induction bytes generalizing s with
  | nil => exact .inr (.inl ⟨h.awaits_nil, fun _ _ => rfl⟩)
  | cons b r ih =>
    by_cases hb : s.Admits b
    · by_cases hs : 1 < s.owed
      · have hstep : ∀ i done, decodeFrom i (some s) done (b :: r) =
            decodeFrom (i + 1) (some (s.push b.toNat)) done r := by
          intro i done
          rw [decodeFrom_some_cons, if_pos hb, if_neg (Nat.not_le.mpr hs)]
        have htaken : ∀ i, i + 1 - (s.push b.toNat).taken = i - s.taken :=
          fun i => Nat.add_sub_add_right i 1 s.taken
        obtain ⟨q, v, r, rfl, hq⟩ | ⟨hr, heq⟩ | ⟨p, x, r, rfl, hp, hx, heq⟩ :=
          ih (open_push hs b.toNat)
        · exact .inl ⟨b :: q, v, r, rfl, .next hs hb hq⟩
        · exact .inr (.inl ⟨hr.cons hs hb, fun i done => by rw [hstep, heq, htaken]⟩)
        · refine .inr (.inr ⟨b :: p, x, r, rfl, hp.cons hs hb, fun q v hq => ?_, fun i done => ?_⟩)
          · obtain ⟨_, _, heq, -, hq⟩ := (completes_iff_of_lt_owed hs).mp hq
            obtain ⟨rfl, rfl⟩ := List.cons.inj heq
            exact hx q v hq
          · rw [hstep, heq, htaken, List.length_cons, Nat.add_comm p.length, ← Nat.add_assoc]
            rfl
      · exact .inl ⟨[b], _, r, rfl, .last (Nat.le_of_not_lt hs) hb⟩
    · refine .inr (.inr ⟨[], b, r, rfl, h.awaits_nil, fun q v hq => ?_, fun i done => ?_⟩)
      · cases hq with
        | last _ hb' => exact hb hb'
        | next _ hb' => exact hb hb'
      · rw [decodeFrom_some_cons, if_neg hb]
        rfl

/-! ## Characters and their beginnings -/

/-- Bytes that are a proper beginning of the encoding of some character. -/
def Begins (bytes : List UInt8) : Prop :=
  ∃ c, bytes <+: String.utf8EncodeChar c ∧ bytes ≠ String.utf8EncodeChar c

/-- No encoding of a character goes on as the encoding of another. -/
theorem prefix_utf8EncodeChar_inj {c d : Char}
    (h : String.utf8EncodeChar c <+: String.utf8EncodeChar d) : c = d := by
  obtain ⟨r, hr⟩ := h
  have hc := ByteArray.utf8DecodeChar?_utf8EncodeChar_append (b := r.toByteArray) (c := c)
  have hd := ByteArray.utf8DecodeChar?_utf8EncodeChar_append (b := ByteArray.empty) (c := d)
  rw [ByteArray.append_empty, ← hr, List.toByteArray_append, hc] at hd
  exact Option.some.inj hd

/-- A text in front of which another stands, and no character behind that one, goes no further. -/
theorem prefix_of_encode_append {t u : Text} {r : List UInt8}
    (hr : ∀ c, ¬ String.utf8EncodeChar c <+: r) (h : encode u <+: encode t ++ r) : u <+: t := by
  induction u generalizing t with
  | nil => exact List.nil_prefix
  | cons c u ih =>
    rw [encode_cons] at h
    cases t with
    | nil => exact absurd ((List.prefix_append ..).trans h) (hr c)
    | cons d t =>
      rw [encode_cons, List.append_assoc] at h
      have hcd : c = d := by
        obtain hle | hle := Nat.le_total (String.utf8EncodeChar c).length
          (String.utf8EncodeChar d).length
        · exact prefix_utf8EncodeChar_inj (List.prefix_of_prefix_length_le
            ((List.prefix_append ..).trans h) (List.prefix_append ..) hle)
        · exact (prefix_utf8EncodeChar_inj (List.prefix_of_prefix_length_le
            (List.prefix_append ..) ((List.prefix_append ..).trans h) hle)).symm
      subst hcd
      exact List.cons_prefix_cons.mpr ⟨rfl, ih ((List.prefix_append_right_inj _).mp h)⟩

/-- The beginnings of a text are encoded as the beginnings of its bytes that are encodings. -/
theorem encode_prefix_encode_iff {u t : Text} : encode u <+: encode t ↔ u <+: t := by
  constructor
  · intro h
    refine prefix_of_encode_append (r := []) (fun c hc => ?_) (by rwa [List.append_nil])
    exact String.utf8EncodeChar_ne_nil (List.prefix_nil.mp hc)
  · rintro ⟨r, rfl⟩
    exact ⟨encode r, (encode_append u r).symm⟩

theorem encode_injective : Function.Injective encode := by
  intro t u h
  have htu : t <+: u := encode_prefix_encode_iff.mp (h ▸ List.prefix_rfl)
  have hut : u <+: t := encode_prefix_encode_iff.mp (h ▸ List.prefix_rfl)
  exact htu.eq_of_length_le hut.length_le

theorem encode_ne_nil {t : Text} (h : t ≠ []) : encode t ≠ [] :=
  fun hnil => h (encode_injective hnil)

/-- Bytes with no character in front: all of them begin one, or all up to a byte that parts them
from every character.  The number is what a fault reports of them. -/
inductive Broken : List UInt8 → Option Nat → Prop
  | short {bytes : List UInt8} : bytes ≠ [] → Begins bytes → Broken bytes none
  | parted {p r : List UInt8} {x : UInt8} : Begins p →
      (∀ c, ¬ p ++ [x] <+: String.utf8EncodeChar c) → Broken (p ++ x :: r) (some (max 1 p.length))

theorem begins_nil : Begins [] := ⟨'a', List.nil_prefix, String.utf8EncodeChar_ne_nil.symm⟩

theorem Sequence.Awaits.begins {b : UInt8} {s : Sequence} (hs : begin? b.toNat = some s)
    {p : List UInt8} : s.Awaits p → Begins (b :: p)
  | ⟨q, v, hne, hq⟩ => by
    have hc := utf8EncodeChar_of_completes hs hq
    refine ⟨Char.ofNat v, ⟨q, hc.symm⟩, fun heq => hne ?_⟩
    rw [hc, ← List.cons_append] at heq
    exact List.self_eq_append_right.mp heq

theorem not_prefix_utf8EncodeChar {b : UInt8} {p : List UInt8} (hb : 0x80 ≤ b.toNat)
    (h : ∀ s, begin? b.toNat = some s → ∀ q v, ¬ s.Completes (p ++ q) v) (c : Char) :
    ¬ b :: p <+: String.utf8EncodeChar c := by
  rintro ⟨q, hq⟩
  obtain ⟨hlt, -⟩ | ⟨-, s, hs, hcomplete⟩ := eq_or_completes_of_utf8EncodeChar hq.symm
  · omega
  · exact h s hs q _ hcomplete

/-- Either a character stands in front, and is read, or the bytes are broken, and the fault says
so. -/
theorem decodeFrom_none_cases {bytes : List UInt8} (hne : bytes ≠ []) :
    (∃ c r, bytes = String.utf8EncodeChar c ++ r ∧ ∀ i done,
      decodeFrom i none done bytes =
        decodeFrom (i + (String.utf8EncodeChar c).length) none (c :: done) r) ∨
    ∃ length, Broken bytes length ∧
      ∀ i done, decodeFrom i none done bytes = .error ⟨i, length⟩ := by
  obtain ⟨b, r, rfl⟩ := List.exists_cons_of_ne_nil hne
  by_cases hb : b.toNat < 0x80
  · have hc := utf8EncodeChar_of_lt hb
    refine .inl ⟨Char.ofNat b.toNat, r, by rw [hc]; rfl, fun i done => ?_⟩
    rw [decodeFrom, if_pos hb, hc]
    rfl
  cases hs : begin? b.toNat with
  | none =>
    refine .inr ⟨some 1, .parted (p := []) begins_nil ?_, fun i done => ?_⟩
    · exact not_prefix_utf8EncodeChar (Nat.le_of_not_lt hb) fun s h => by rw [hs] at h; cases h
    · simp only [decodeFrom, if_neg hb, hs]
  | some s =>
    have hstep : ∀ i done,
        decodeFrom i none done (b :: r) = decodeFrom (i + 1) (some s) done r := by
      intro i done
      simp only [decodeFrom, if_neg hb, hs]
    have htaken : s.taken = 1 := taken_of_begin? hs
    obtain ⟨q, v, r, rfl, hq⟩ | ⟨hr, heq⟩ | ⟨p, x, r, rfl, hp, hx, heq⟩ :=
      (open_of_begin? hs).decodeFrom_cases r
    · have hc := utf8EncodeChar_of_completes hs hq
      refine .inl ⟨Char.ofNat v, r, by rw [hc]; rfl, fun i done => ?_⟩
      rw [hstep, decodeFrom_of_completes hq, hc, List.length_cons, Nat.add_assoc, Nat.add_comm 1]
    · refine .inr ⟨none, .short hne (hr.begins hs), fun i done => ?_⟩
      rw [hstep, heq, htaken, Nat.add_sub_cancel]
    · refine .inr ⟨some (max 1 (b :: p).length), .parted (p := b :: p) (hp.begins hs) ?_,
        fun i done => ?_⟩
      · refine not_prefix_utf8EncodeChar (Nat.le_of_not_lt hb) fun s' h q v hq => ?_
        obtain rfl : s = s' := Option.some.inj (hs.symm.trans h)
        exact hx q v (List.append_cons p x q ▸ hq)
      · rw [hstep, heq, htaken, Nat.add_sub_cancel, List.length_cons, Nat.add_comm 1,
          Nat.max_eq_right (by omega)]

end Conformance.Utf8
