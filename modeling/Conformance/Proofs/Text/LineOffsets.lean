import Conformance.Text.LineOffsets
import Conformance.Proofs.Text.Lines
import Conformance.Proofs.Text.Utf8

/-!
# The loop over byte offsets is safe

The offsets that the loop finds in the encoding of a text are lengths of encodings of its parts:
a break is found behind the encoding of the first line, and the unit found there is as wide as its
encoding.  The bytes may be cut at exactly such offsets (`isBoundary_encode_iff`), since every byte
of a character but the first goes on with it.  What remains of the bytes after a round is therefore
the encoding of an end of the text (`Remains.exists_encode`), which is the invariant that carries
the loop to `linesByOffset?_encode`.
-/

namespace Conformance.Utf8

/-! ## Boundaries -/

/-- The first byte of a character tells itself from the others by its size. -/
theorem units_between_iff {v i u : Nat} (hv : v < 0x110000) (h : (units v)[i]? = some u) :
    0x80 ≤ u ∧ u < 0xC0 ↔ 0 < i := by
  unfold units at h
  split_ifs at h <;> rcases i with _ | _ | _ | _ | i <;>
    simp only [List.getElem?_cons_zero, List.getElem?_cons_succ, List.getElem?_nil,
      Option.some.injEq, reduceCtorEq] at h <;>
    omega

/-- The bytes of a character go on with it, all but the first. -/
theorem isContinuation_of_getElem? {c : Char} {i : Nat} {b : UInt8}
    (h : (String.utf8EncodeChar c)[i]? = some b) : isContinuation b = decide (0 < i) := by
  have hunit : (units c.toNat)[i]? = some b.toNat := by
    rw [← map_toNat_utf8EncodeChar, List.getElem?_map, h]
    rfl
  rw [isContinuation, ← Bool.decide_and]
  exact decide_eq_decide.mpr (units_between_iff (toNat_lt c) hunit)

/-- The first byte of a text goes on with no character. -/
theorem isContinuation_head {t : Text} {b : UInt8} (h : (encode t)[0]? = some b) :
    isContinuation b = false := by
  cases t with
  | nil => cases h
  | cons c r =>
    have hpos : 0 < (String.utf8EncodeChar c).length :=
      List.length_pos_iff.mpr String.utf8EncodeChar_ne_nil
    rw [encode_cons, List.getElem?_append_left hpos] at h
    exact isContinuation_of_getElem? h

@[simp] theorem isBoundary_zero (bytes : List UInt8) : isBoundary bytes 0 = true := rfl

theorem isBoundary_of_pos {bytes : List UInt8} {n : Nat} (hn : 0 < n) :
    isBoundary bytes n =
      match bytes[n]? with
      | none => n == bytes.length
      | some b => !isContinuation b :=
  if_neg (Nat.ne_of_gt hn)

theorem isBoundary_nil_iff {n : Nat} : isBoundary [] n = true ↔ n = 0 := by
  cases n with
  | zero => simp
  | succ n => simp [isBoundary]

/-- Behind the first byte of a character, the next boundary is its end. -/
theorem isBoundary_encode_cons_iff {c : Char} {r : Text} {n : Nat} (hn : 0 < n) :
    isBoundary (encode (c :: r)) n = true ↔
      c.utf8Size ≤ n ∧ isBoundary (encode r) (n - c.utf8Size) = true := by
  have hsize : (String.utf8EncodeChar c).length = c.utf8Size := String.length_utf8EncodeChar c
  rw [isBoundary_of_pos hn, encode_cons]
  obtain hlt | hle := Nat.lt_or_ge n c.utf8Size
  · have hbyte := List.getElem?_eq_getElem (hsize ▸ hlt)
    rw [List.getElem?_append_left (hsize ▸ hlt), hbyte]
    simp [isContinuation_of_getElem? hbyte, hn, Nat.not_le.mpr hlt]
  · rw [List.getElem?_append_right (hsize ▸ hle), hsize, List.length_append, hsize]
    obtain hzero | hpos := Nat.eq_zero_or_pos (n - c.utf8Size)
    · -- the end of the character: what follows is the end of all bytes, or a first byte
      rw [hzero]
      cases hbyte : (encode r)[0]? with
      | none =>
        have hnil : (encode r).length = 0 := Nat.le_zero.mp (List.getElem?_eq_none_iff.mp hbyte)
        simp only [hnil, isBoundary_zero, beq_iff_eq, and_true]
        omega
      | some b => simp [isContinuation_head hbyte, hle]
    · rw [isBoundary_of_pos hpos]
      cases (encode r)[n - c.utf8Size]? with
      | none =>
        simp only [beq_iff_eq]
        omega
      | some b => simp [hle]

/-- **Boundaries.** The bytes of a text may be cut where the text may, and nowhere else. -/
theorem isBoundary_encode_iff {t : Text} {n : Nat} :
    isBoundary (encode t) n = true ↔ ∃ a b, t = a ++ b ∧ n = (encode a).length := by
  induction t generalizing n with
  | nil =>
    refine isBoundary_nil_iff.trans ⟨?_, ?_⟩
    · rintro rfl
      exact ⟨[], [], rfl, rfl⟩
    · rintro ⟨a, b, hab, rfl⟩
      rw [(List.append_eq_nil_iff.mp hab.symm).1]
      rfl
  | cons c r ih =>
    rcases Nat.eq_zero_or_pos n with rfl | hn
    · exact iff_of_true (isBoundary_zero _) ⟨[], c :: r, rfl, rfl⟩
    rw [isBoundary_encode_cons_iff hn, ih]
    constructor
    · rintro ⟨hle, a, b, rfl, ha⟩
      refine ⟨c :: a, b, rfl, ?_⟩
      rw [encode_cons, List.length_append, String.length_utf8EncodeChar]
      omega
    · rintro ⟨a, b, hab, rfl⟩
      cases a with
      | nil => exact absurd hn (Nat.lt_irrefl 0)
      | cons d a =>
        obtain ⟨rfl, rfl⟩ := List.cons.inj hab
        rw [encode_cons, List.length_append, String.length_utf8EncodeChar]
        exact ⟨Nat.le_add_right .., a, b, rfl, Nat.add_sub_cancel_left ..⟩

/-- Bytes are cut behind the encoding of the front of a text. -/
theorem cut?_encode_append (a b : Text) :
    cut? (encode (a ++ b)) (encode a).length = some (encode a, encode b) := by
  rw [cut?, if_pos (isBoundary_encode_iff.mpr ⟨a, b, rfl, rfl⟩), encode_append, List.take_left,
    List.drop_left]

/-! ## One round -/

theorem firstChar?_encode (t : Text) : firstChar? (encode t) = t.head? := by
  cases t with
  | nil => rfl
  | cons c r =>
    have hle : (String.utf8EncodeChar c).length ≤ 4 := by
      rw [String.length_utf8EncodeChar]
      exact c.utf8Size_le_four
    rw [firstChar?, encode_cons, List.take_append, List.take_of_length_le hle,
      List.toByteArray_append]
    exact ByteArray.utf8DecodeChar?_utf8EncodeChar_append

theorem breakOffset?_encode_cons (c : Char) (r : Text) :
    breakOffset? (encode (c :: r)) =
      if isBreak c then some 0 else (breakOffset? (encode r)).map (c.utf8Size + ·) := by
  have hdrop : (encode (c :: r)).drop c.utf8Size = encode r := by
    rw [encode_cons, ← String.length_utf8EncodeChar, List.drop_left]
  rw [breakOffset?]
  split
  · rename_i h
    rw [firstChar?_encode] at h
    cases h
  · rename_i d h
    rw [firstChar?_encode] at h
    obtain rfl : c = d := Option.some.inj h
    rw [hdrop]

/-- No break is found in a text without one. -/
theorem breakOffset?_encode_of_unbroken {l : Text} (hl : ∀ c ∈ l, isBreak c = false) :
    breakOffset? (encode l) = none := by
  induction l with
  | nil =>
    rw [breakOffset?]
    rfl
  | cons c r ih =>
    rw [breakOffset?_encode_cons, hl c List.mem_cons_self, if_neg Bool.false_ne_true,
      ih fun d hd => hl d (List.mem_cons_of_mem c hd), Option.map_none]

/-- The first break is found behind the line that it ends. -/
theorem breakOffset?_encode_append {l : Text} (hl : ∀ c ∈ l, isBreak c = false) {c : Char}
    (hc : isBreak c = true) (r : Text) :
    breakOffset? (encode (l ++ c :: r)) = some (encode l).length := by
  induction l with
  | nil => rw [List.nil_append, breakOffset?_encode_cons, if_pos hc]; rfl
  | cons d l ih =>
    rw [List.cons_append, breakOffset?_encode_cons, hl d List.mem_cons_self,
      if_neg Bool.false_ne_true, ih fun x hx => hl x (List.mem_cons_of_mem d hx), Option.map_some,
      encode_cons, List.length_append, String.length_utf8EncodeChar]

/-- A first line, the break unit that ends it, and a text behind that does not go on with the
unit. -/
structure Ends (line unit behind : Text) : Prop where
  unbroken : ∀ c ∈ line, isBreak c = false
  isUnit : BreakUnit unit
  whole : unit = ['\r'] → behind.head? ≠ some '\n'

namespace Ends

variable {line unit behind : Text}

theorem breakOffset?_eq (h : Ends line unit behind) :
    breakOffset? (encode (line ++ (unit ++ behind))) = some (encode line).length := by
  cases h.isUnit with
  | pair => exact breakOffset?_encode_append h.unbroken rfl _
  | single hc => exact breakOffset?_encode_append h.unbroken hc _

/-- A unit is found as wide as its encoding. -/
theorem breakWidth?_eq (h : Ends line unit behind) :
    breakWidth? (encode (unit ++ behind)) = some (encode unit).length := by
  have hpair : (encode ['\r', '\n']).isPrefixOf (encode (unit ++ behind)) = true ↔
      ['\r', '\n'] <+: unit ++ behind := by
    rw [List.isPrefixOf_iff_prefix, encode_prefix_encode_iff]
  have hwhole := h.whole
  cases h.isUnit with
  | pair => rw [breakWidth?, if_pos (hpair.mpr (List.prefix_append _ _))]; rfl
  | @single c hc =>
    rw [breakWidth?, if_neg, firstChar?_encode]
    · simp [encode]
    · intro hprefix
      obtain ⟨rfl, hfeed⟩ := List.cons_prefix_cons.mp (hpair.mp hprefix)
      obtain ⟨r, rfl⟩ := hfeed
      exact hwhole rfl rfl

theorem nextLine?_eq (h : Ends line unit behind) :
    nextLine? (encode (line ++ (unit ++ behind))) = some (encode line, encode behind) := by
  simp only [nextLine?, h.breakOffset?_eq, cut?_encode_append, h.breakWidth?_eq, Option.getD_some]

theorem length_unit_pos (h : Ends line unit behind) : 0 < (encode unit).length := by
  refine List.length_pos_iff.mpr (encode_ne_nil ?_)
  rintro rfl
  nomatch h.isUnit

/-- A break stands within the bytes. -/
theorem offset_lt (h : Ends line unit behind) :
    (encode line).length < (encode (line ++ (unit ++ behind))).length := by
  have hpos := h.length_unit_pos
  rw [encode_append, encode_append, List.length_append, List.length_append]
  omega

/-- A break unit takes bytes away. -/
theorem length_lt (h : Ends line unit behind) :
    (encode behind).length < (encode (line ++ (unit ++ behind))).length := by
  have hpos := h.length_unit_pos
  rw [encode_append, encode_append, List.length_append, List.length_append]
  omega

end Ends

/-- A last line that no break ends is all that there is. -/
theorem nextLine?_encode_of_unbroken {l : Text} (hl : ∀ c ∈ l, isBreak c = false) :
    nextLine? (encode l) = some (encode l, []) := by
  rw [nextLine?, breakOffset?_encode_of_unbroken hl]

/-! ## Every round -/

/-- The rows of a text in which a break ends the first line. -/
theorem Ends.of_terminated {row : Text.Row} {rows : List Text.Row}
    (h : Text.Terminated (row :: rows)) (hunit : BreakUnit row.terminator) :
    Ends row.line row.terminator (Text.written rows) :=
  ⟨(Text.terminated_cons_iff.mp h).1, hunit, h.head?_written_tail_ne⟩

/-- A text ends with its first line, or a break unit ends that line. -/
theorem unbroken_or_ends (t : Text) :
    (∀ c ∈ t, isBreak c = false) ∨
      ∃ line unit behind, t = line ++ (unit ++ behind) ∧ Ends line unit behind := by
  obtain ⟨rows, hrows, rfl⟩ := Text.exists_terminated t
  cases rows with
  | nil => exact .inl fun c hc => absurd hc List.not_mem_nil
  | cons row rows =>
    obtain ⟨hline, hunit | ⟨rfl, hnil, -⟩, -⟩ := Text.terminated_cons_iff.mp hrows
    · exact .inr ⟨_, _, _, Text.written_cons .., .of_terminated hrows hunit⟩
    · rw [Text.written_cons, hnil, Text.written_nil, List.append_nil, List.append_nil]
      exact .inl hline

/-- What is left of bytes when a round begins, or when the last has ended. -/
inductive Remains (bytes : List UInt8) : List UInt8 → Prop
  | start : Remains bytes bytes
  | next {rest line rest' : List UInt8} : Remains bytes rest → rest ≠ [] →
      nextLine? rest = some (line, rest') → Remains bytes rest'

/-- **The invariant.** What remains of the bytes of a text encodes an end of the text. -/
theorem Remains.exists_encode {t : Text} {rest : List UInt8} (h : Remains (encode t) rest) :
    ∃ a b, t = a ++ b ∧ rest = encode b := by
  induction h with
  | start => exact ⟨[], t, rfl, rfl⟩
  | next _ _ hnext ih =>
    obtain ⟨a, b, rfl, rfl⟩ := ih
    obtain hb | ⟨line, unit, behind, rfl, hends⟩ := unbroken_or_ends b
    · rw [nextLine?_encode_of_unbroken hb] at hnext
      cases hnext
      exact ⟨a ++ b, [], (List.append_nil _).symm, rfl⟩
    · rw [hends.nextLine?_eq] at hnext
      cases hnext
      exact ⟨a ++ line ++ unit, behind, by simp only [List.append_assoc], rfl⟩

/-! ## The loop -/

theorem linesByOffset?_nil : linesByOffset? [] = some [] := by
  rw [linesByOffset?]
  rfl

/-- A round that takes bytes away gives a line. -/
theorem linesByOffset?_of_nextLine? {rest line rest' : List UInt8}
    (hnext : nextLine? rest = some (line, rest')) (hlt : rest'.length < rest.length) :
    linesByOffset? rest = (linesByOffset? rest').map (line :: ·) := by
  have hne : ¬ rest.isEmpty = true := by
    rw [List.isEmpty_iff]
    rintro rfl
    exact Nat.not_lt_zero _ hlt
  rw [linesByOffset?, if_neg hne]
  simp only [hnext, if_pos hlt]

/-- The loop finds the encodings of the lines. -/
theorem linesByOffset?_encode (t : Text) :
    linesByOffset? (encode t) = some (t.lines.map encode) := by
  obtain ⟨rows, hrows, rfl⟩ := Text.exists_terminated t
  rw [hrows.lines_written]
  induction rows with
  | nil => exact linesByOffset?_nil
  | cons row rows ih =>
    obtain ⟨hline, hunit | ⟨rfl, hnil, hne⟩, -, htail⟩ := Text.terminated_cons_iff.mp hrows
    · have hends : Ends row.line row.terminator (Text.written rows) := .of_terminated hrows hunit
      rw [Text.written_cons, linesByOffset?_of_nextLine? hends.nextLine?_eq hends.length_lt,
        ih htail]
      rfl
    · have hpos : 0 < (encode row.line).length := List.length_pos_iff.mpr (encode_ne_nil hne)
      rw [Text.written_cons, hnil, Text.written_nil, List.append_nil, List.append_nil,
        linesByOffset?_of_nextLine? (nextLine?_encode_of_unbroken hline) hpos, linesByOffset?_nil]
      rfl

/-- **The loop over offsets.** On the bytes of every text it finds the encodings of the lines.  It
never stops at a bad cut, whatever remains of the bytes: a round gives a line and takes bytes away.
A break it finds is the start of a unit that ends a line, and both cuts, in front of the unit and
behind it, lie within the bytes on boundaries of characters.  The width of the unit is found there,
so the width that is taken where no character stands is never needed. -/
theorem linesByOffset?_safe (t : Text) :
    linesByOffset? (encode t) = some (t.lines.map encode) ∧
    ∀ rest, Remains (encode t) rest → rest ≠ [] →
      (∃ line rest', nextLine? rest = some (line, rest') ∧ rest'.length < rest.length) ∧
      ∀ offset, breakOffset? rest = some offset →
        ∃ line unit behind, rest = encode (line ++ (unit ++ behind)) ∧ Ends line unit behind ∧
          offset = (encode line).length ∧ offset < rest.length ∧
          isBoundary rest offset = true ∧
          breakWidth? (rest.drop offset) = some (encode unit).length ∧
          (encode unit).length ≤ (rest.drop offset).length ∧
          isBoundary (rest.drop offset) (encode unit).length = true := by
  refine ⟨linesByOffset?_encode t, fun rest hrest hne => ?_⟩
  obtain ⟨-, b, -, rfl⟩ := hrest.exists_encode
  obtain hb | ⟨line, unit, behind, rfl, hends⟩ := unbroken_or_ends b
  · refine ⟨⟨encode b, [], nextLine?_encode_of_unbroken hb, List.length_pos_iff.mpr hne⟩, ?_⟩
    intro offset hoffset
    rw [breakOffset?_encode_of_unbroken hb] at hoffset
    cases hoffset
  · refine ⟨⟨_, _, hends.nextLine?_eq, hends.length_lt⟩, fun offset hoffset => ?_⟩
    obtain rfl : (encode line).length = offset :=
      Option.some.inj (hends.breakOffset?_eq.symm.trans hoffset)
    have hdrop : (encode (line ++ (unit ++ behind))).drop (encode line).length =
        encode (unit ++ behind) := by
      rw [encode_append, List.drop_left]
    refine ⟨line, unit, behind, rfl, hends, rfl, hends.offset_lt,
      isBoundary_encode_iff.mpr ⟨_, _, rfl, rfl⟩, ?_⟩
    rw [hdrop]
    refine ⟨hends.breakWidth?_eq, ?_, isBoundary_encode_iff.mpr ⟨_, _, rfl, rfl⟩⟩
    rw [encode_append, List.length_append]
    exact Nat.le_add_right ..

/-- The second round of a text whose first line ends with the pair: the break is the first of the
characters that remain, and is three bytes wide. -/
theorem linesByOffset?_safe_behind_pair :
    linesByOffset? (encode ['é', '\r', '\n', '\u2028', 'z']) =
      some [encode ['é'], [], encode ['z']] ∧
    Remains (encode ['é', '\r', '\n', '\u2028', 'z']) (encode ['\u2028', 'z']) ∧
    encode ['\u2028', 'z'] ≠ [] ∧
    (∃ line rest', nextLine? (encode ['\u2028', 'z']) = some (line, rest') ∧ rest'.length < 4) ∧
    breakOffset? (encode ['\u2028', 'z']) = some 0 ∧
    ∃ line unit behind, encode ['\u2028', 'z'] = encode (line ++ (unit ++ behind)) ∧
      Ends line unit behind ∧ 0 = (encode line).length ∧ 0 < 4 ∧
      isBoundary (encode ['\u2028', 'z']) 0 = true ∧
      breakWidth? (encode ['\u2028', 'z']) = some (encode unit).length ∧
      (encode unit).length ≤ 4 ∧
      isBoundary (encode ['\u2028', 'z']) (encode unit).length = true := by
  have hfirst : Ends ['é'] ['\r', '\n'] ['\u2028', 'z'] :=
    ⟨List.forall_mem_singleton.mpr rfl, .pair, by simp⟩
  have hremains : Remains (encode ['é', '\r', '\n', '\u2028', 'z']) (encode ['\u2028', 'z']) :=
    .next .start (by decide) hfirst.nextLine?_eq
  have hoffset : breakOffset? (encode ['\u2028', 'z']) = some 0 := breakOffset?_encode_cons ..
  have hne : encode ['\u2028', 'z'] ≠ [] := by decide
  obtain ⟨hlines, hrounds⟩ := linesByOffset?_safe ['é', '\r', '\n', '\u2028', 'z']
  obtain ⟨hprogress, hcuts⟩ := hrounds _ hremains hne
  exact ⟨hlines, hremains, hne, hprogress, hoffset, hcuts 0 hoffset⟩

end Conformance.Utf8
