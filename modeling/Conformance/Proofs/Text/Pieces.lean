import Conformance.Proofs.Text.Marker

/-!
# The pieces of a text between its markers

`Pieces` holds a text cut at its maximal markers: the piece in front of the first marker, and for
each marker its number and the piece behind it.  No piece has a marker of its own, and none goes on
with digits of the marker in front of it.  Every text can be cut like this (`Pieces.exists_text_eq`),
in one way only (`Pieces.text_inj`), and masking it puts the placeholder between its pieces
(`Pieces.mask_text`).

Where no piece holds the placeholder itself, the pieces can be read back from the masked text
(`join_placeholder_inj`).
-/

namespace Conformance.Text

/-- A marker, and the piece of the text behind it up to the next marker. -/
@[ext]
structure Marker where
  number : Text
  piece : Text
  isNumber : IsNumber number
  separate : startsWithDigit piece = false
  plain : hasMarker piece = false

/-- A text cut at its maximal markers. -/
@[ext]
structure Pieces where
  front : Text
  markers : List Marker
  plain : hasMarker front = false

/-- A marker as it is written, with the piece behind it. -/
def Marker.text (m : Marker) : Text := '#' :: (m.number ++ m.piece)

namespace Pieces

/-- The text that is cut. -/
def text (p : Pieces) : Text := p.front ++ p.markers.flatMap Marker.text

/-- The pieces alone, without the markers between them. -/
def gaps (p : Pieces) : List Text := p.front :: p.markers.map Marker.piece

/-! ## Cutting a text -/

theorem startsWithDigit_markers (ms : List Marker) :
    startsWithDigit (ms.flatMap Marker.text) = false := by
  cases ms <;> rfl

/-- No number goes on into the piece behind it. -/
theorem startsWithDigit_behind (m : Marker) (ms : List Marker) :
    startsWithDigit (m.piece ++ ms.flatMap Marker.text) = false := by
  rw [startsWithDigit_append (startsWithDigit_markers ms), m.separate]

theorem startsWithDigit_text (p : Pieces) : startsWithDigit p.text = startsWithDigit p.front :=
  startsWithDigit_append (startsWithDigit_markers p.markers) p.front

/-- Every text can be cut at its maximal markers. -/
theorem exists_text_eq (t : Text) : ∃ p : Pieces, p.text = t := by
  induction t using markerInduction with
  | nil => exact ⟨⟨[], [], rfl⟩, rfl⟩
  | marker d v hd hv ih =>
    obtain ⟨p, rfl⟩ := ih
    rw [startsWithDigit_text] at hv
    refine ⟨⟨[], ⟨d, p.front, hd, hv, p.plain⟩ :: p.markers, rfl⟩, ?_⟩
    simp [text, Marker.text]
  | other c r hc ih =>
    obtain ⟨p, rfl⟩ := ih
    rw [startsWithDigit_text] at hc
    refine ⟨⟨c :: p.front, p.markers, ?_⟩, rfl⟩
    rw [hasMarker, hc, p.plain, Bool.or_false]

/-! ## There is one way to cut -/

/-- Where digits end, the number ends. -/
theorem number_inj {d e v w : Text} (hd : IsNumber d) (he : IsNumber e)
    (hv : startsWithDigit v = false) (hw : startsWithDigit w = false) (h : d ++ v = e ++ w) :
    d = e ∧ v = w := by
  have hnumber : ∀ {d v : Text}, IsNumber d → startsWithDigit v = false →
      (d ++ v).takeWhile Char.isDigit = d := by
    intro d v hd hv
    rw [List.takeWhile_append_of_pos hd.isDigit]
    cases v with
    | nil => exact List.append_nil d
    | cons c r =>
      have hc : ¬ c.isDigit = true := Bool.eq_false_iff.mp hv
      rw [List.takeWhile_cons_of_neg hc, List.append_nil]
  have hde : d = e := by rw [← hnumber hd hv, h, hnumber he hw]
  subst hde
  exact ⟨rfl, List.append_cancel_left h⟩

/-- Between two markers, or in front of one, nothing is left over: it would hold a marker. -/
theorem eq_nil_of_markers {k : Text} {ms ns : List Marker} (hk : hasMarker k = false)
    (h : ms.flatMap Marker.text = k ++ ns.flatMap Marker.text) : k = [] := by
  cases ms with
  | nil => exact (List.append_eq_nil_iff.mp h.symm).1
  | cons m ms =>
    cases k with
    | nil => rfl
    | cons c r =>
      -- `c` is the `#` of a marker, and the digit behind it lies in `r` or in front of a `#`
      rw [List.flatMap_cons, Marker.text, List.cons_append, List.cons_append] at h
      obtain ⟨rfl, hr⟩ := List.cons.inj h
      have hdigit : startsWithDigit r = true := by
        rw [← startsWithDigit_append (startsWithDigit_markers ns) r, ← hr, List.append_assoc]
        exact m.isNumber.startsWithDigit_append _
      rw [hasMarker, hdigit] at hk
      exact Bool.noConfusion hk

/-- A piece ends where the next marker begins. -/
theorem piece_inj {g h : Text} {ms ns : List Marker} (hg : hasMarker g = false)
    (hh : hasMarker h = false)
    (heq : g ++ ms.flatMap Marker.text = h ++ ns.flatMap Marker.text) :
    g = h ∧ ms.flatMap Marker.text = ns.flatMap Marker.text := by
  rcases List.append_eq_append_iff.mp heq with ⟨k, rfl, hk⟩ | ⟨k, rfl, hk⟩
  · have hplain := not_hasMarker_of_infix List.infix_append_right hh
    obtain rfl := eq_nil_of_markers hplain hk
    exact ⟨(List.append_nil g).symm, hk⟩
  · have hplain := not_hasMarker_of_infix List.infix_append_right hg
    obtain rfl := eq_nil_of_markers hplain hk
    exact ⟨List.append_nil h, hk.symm⟩

theorem markers_inj {ms ns : List Marker}
    (h : ms.flatMap Marker.text = ns.flatMap Marker.text) : ms = ns := by
  induction ms generalizing ns with
  | nil =>
    cases ns with
    | nil => rfl
    | cons n ns => exact absurd h.symm (List.cons_ne_nil _ _)
  | cons m ms ih =>
    cases ns with
    | nil => exact absurd h (List.cons_ne_nil _ _)
    | cons n ns =>
      rw [List.flatMap_cons, List.flatMap_cons, Marker.text, Marker.text, List.cons_append,
        List.cons_append, List.append_assoc, List.append_assoc] at h
      obtain ⟨hnumber, hbehind⟩ := number_inj m.isNumber n.isNumber
        (startsWithDigit_behind m ms) (startsWithDigit_behind n ns) (List.cons.inj h).2
      obtain ⟨hpiece, hrest⟩ := piece_inj m.plain n.plain hbehind
      rw [Marker.ext hnumber hpiece, ih hrest]

/-- A text is cut in one way only. -/
theorem text_inj {p q : Pieces} (h : p.text = q.text) : p = q := by
  obtain ⟨hfront, hmarkers⟩ := piece_inj p.plain q.plain h
  exact Pieces.ext hfront (markers_inj hmarkers)

/-- A text has a marker exactly if it is cut somewhere. -/
theorem hasMarker_text_iff (p : Pieces) : hasMarker p.text = true ↔ 1 ≤ p.markers.length := by
  obtain ⟨front, markers, plain⟩ := p
  cases markers with
  | nil => simp [text, plain]
  | cons m ms =>
    refine ⟨fun _ => Nat.succ_pos ms.length, fun _ => hasMarker_iff.mpr ?_⟩
    obtain ⟨number, piece, ⟨hne, hdigit⟩, _, _⟩ := m
    cases number with
    | nil => exact absurd rfl hne
    | cons d ds =>
      exact ⟨d, hdigit d List.mem_cons_self, front, ds ++ (piece ++ ms.flatMap Marker.text),
        by simp [text, Marker.text]⟩

/-! ## Masking the pieces -/

theorem mask_markers (ms : List Marker) :
    mask (ms.flatMap Marker.text) = ms.flatMap fun m => placeholder ++ m.piece := by
  induction ms with
  | nil => rfl
  | cons m ms ih =>
    rw [List.flatMap_cons, List.flatMap_cons, Marker.text, List.cons_append, List.append_assoc,
      mask_marker m.isNumber (startsWithDigit_behind m ms),
      mask_append (startsWithDigit_markers ms), mask_of_not_hasMarker m.plain, ih,
      List.append_assoc]

/-- Masking writes the placeholder between the pieces. -/
theorem mask_text (p : Pieces) : mask p.text = join placeholder p.gaps := by
  rw [text, mask_append (startsWithDigit_markers p.markers), mask_of_not_hasMarker p.plain,
    mask_markers, gaps, join, List.flatMap_map]

/-- The text is reported, masked, exactly if it is cut somewhere. -/
theorem rewrite?_text (p : Pieces) :
    rewrite? p.text = if 1 ≤ p.markers.length then some (mask p.text) else none := by
  rw [rewrite?_eq]
  simp only [p.hasMarker_text_iff]

/-- A piece is a part of the text. -/
theorem infix_text_of_mem_gaps {p : Pieces} {g : Text} (hg : g ∈ p.gaps) : g <:+: p.text := by
  rcases List.mem_cons.mp hg with rfl | hg
  · exact List.infix_append_left
  · obtain ⟨m, hm, rfl⟩ := List.mem_map.mp hg
    have hmarker : m.piece <:+: m.text :=
      ((List.suffix_append m.number m.piece).trans (List.suffix_cons ..)).isInfix
    have hmarkers : m.text <:+: p.markers.flatMap Marker.text :=
      List.infix_of_mem_flatten (List.mem_map_of_mem hm)
    exact (hmarker.trans hmarkers).trans List.infix_append_right

end Pieces

theorem toNat_lt_of_isDigit {c : Char} (h : c.isDigit = true) : c.toNat < 128 := by
  unfold Char.isDigit at h
  rw [Bool.and_eq_true, decide_eq_true_eq, decide_eq_true_eq] at h
  have hle : c.toNat ≤ 57 := h.2
  omega

/-- A character beyond ASCII stays where it is, and the text is masked on either side of it. -/
theorem mask_append_cons_of_not_ascii {c : Char} (hc : 128 ≤ c.toNat) (u v : Text) :
    mask (u ++ c :: v) = mask u ++ c :: mask v := by
  have hdigit : startsWithDigit (c :: v) = false := by
    refine Bool.eq_false_iff.mpr fun h => ?_
    have hlt : c.toNat < 128 := toNat_lt_of_isDigit h
    omega
  have hhash : (c == '#' && startsWithDigit v) = false := by
    have hne : c ≠ '#' := by
      rintro rfl
      exact absurd hc (by decide)
    simp [hne]
  rw [mask_append hdigit, mask_cons hhash]

/-- **Masking at the markers.** There is exactly one way to cut a line at its maximal markers; the
masked line has the placeholder for each of them, and it is reported, as the line written anew,
exactly if there is one.  The numbers are of ASCII digits.  A character beyond ASCII, be it a digit,
stays in the masked line, which is masked apart in front of it and behind it. -/
theorem mask_at_markers (s : Text) :
    (∃ p : Pieces, p.text = s ∧ ∀ q : Pieces, q.text = s → q = p) ∧
    (∀ p : Pieces, p.text = s →
      mask s = join placeholder p.gaps ∧
      (hasMarker s = true ↔ 1 ≤ p.markers.length) ∧
      rewrite? s = (if 1 ≤ p.markers.length then some (mask s) else none) ∧
      ∀ m ∈ p.markers, ∀ c ∈ m.number, c.toNat < 128) ∧
    (∀ u c v, s = u ++ c :: v → 128 ≤ c.toNat → mask s = mask u ++ c :: mask v) := by
  refine ⟨?_, ?_, ?_⟩
  · obtain ⟨p, hp⟩ := Pieces.exists_text_eq s
    exact ⟨p, hp, fun q hq => Pieces.text_inj (hq.trans hp.symm)⟩
  · rintro p rfl
    refine ⟨p.mask_text, p.hasMarker_text_iff, p.rewrite?_text, fun m _ c hc => ?_⟩
    exact toNat_lt_of_isDigit (m.isNumber.isDigit c hc)
  · rintro u c v rfl hc
    exact mask_append_cons_of_not_ascii hc u v

/-- A `#` in front of a marker stays, and so does one without a number. -/
example : mask "##12 #3x #".toList = "##LINE #LINEx #".toList := by decide

/-! ## Reading the pieces back -/

/-- The placeholder does not overlap itself: what stands in front of it, where another one begins,
is nothing or holds that other one. -/
theorem placeholder_prefix_of_append {k x y : Text}
    (h : placeholder ++ x = k ++ (placeholder ++ y)) : k = [] ∨ placeholder <+: k := by
  by_cases hk : k.length < placeholder.length
  · -- a shorter `k` is a proper beginning of the placeholder, and only that of length zero is
    -- followed by `#` in it
    refine .inl ?_
    have hlen : k.length < 5 := hk
    match k, hlen with
    | [], _ => rfl
    | [_], _ => simp [placeholder] at h
    | [_, _], _ => simp [placeholder] at h
    | [_, _, _], _ => simp [placeholder] at h
    | [_, _, _, _], _ => simp [placeholder] at h
  · refine .inr (List.prefix_of_prefix_length_le (List.prefix_append placeholder x) ?_
      (Nat.le_of_not_lt hk))
    rw [h]
    exact List.prefix_append k _

/-- The first placeholder of a text ends its first piece. -/
theorem append_placeholder_inj {g h x y : Text} (hg : ¬ placeholder <:+: g)
    (hh : ¬ placeholder <:+: h) (heq : g ++ (placeholder ++ x) = h ++ (placeholder ++ y)) :
    g = h ∧ x = y := by
  rcases List.append_eq_append_iff.mp heq with ⟨k, rfl, hk⟩ | ⟨k, rfl, hk⟩
  · rcases placeholder_prefix_of_append hk with rfl | hp
    · exact ⟨(List.append_nil g).symm, List.append_cancel_left hk⟩
    · exact absurd (hp.isInfix.trans List.infix_append_right) hh
  · rcases placeholder_prefix_of_append hk with rfl | hp
    · exact ⟨List.append_nil h, (List.append_cancel_left hk).symm⟩
    · exact absurd (hp.isInfix.trans List.infix_append_right) hg

/-- **Reading back.** Pieces without the placeholder are determined by the text that has it between
them. -/
theorem join_placeholder_inj {g h : Text} {gs hs : List Text}
    (hgs : ∀ x ∈ g :: gs, ¬ placeholder <:+: x) (hhs : ∀ x ∈ h :: hs, ¬ placeholder <:+: x)
    (heq : join placeholder (g :: gs) = join placeholder (h :: hs)) : g :: gs = h :: hs := by
  have hg := hgs g List.mem_cons_self
  have hh := hhs h List.mem_cons_self
  induction gs generalizing g h hs with
  | nil =>
    cases hs with
    | nil => simpa using heq
    | cons h' hs =>
      rw [join_singleton, join_cons_cons, List.append_assoc] at heq
      exact absurd ⟨h, _, by rw [List.append_assoc]; exact heq.symm⟩ hg
  | cons g' gs ih =>
    cases hs with
    | nil =>
      rw [join_singleton, join_cons_cons, List.append_assoc] at heq
      exact absurd ⟨g, _, by rw [List.append_assoc]; exact heq⟩ hh
    | cons h' hs =>
      rw [join_cons_cons, join_cons_cons, List.append_assoc, List.append_assoc] at heq
      obtain ⟨rfl, hrest⟩ := append_placeholder_inj hg hh heq
      have hgs' : ∀ x ∈ g' :: gs, ¬ placeholder <:+: x :=
        fun x hx => hgs x (List.mem_cons_of_mem g hx)
      have hhs' : ∀ x ∈ h' :: hs, ¬ placeholder <:+: x :=
        fun x hx => hhs x (List.mem_cons_of_mem g hx)
      rw [ih hgs' hhs' hrest (hgs' g' List.mem_cons_self) (hhs' h' List.mem_cons_self)]

end Conformance.Text
