import Conformance.Capture

/-!
# What masking does to a line

A line is read from left to right (`maskFrom`), and it is reported as rewritten if it has a marker
(`rewrite?_eq`).  A line without one is its own mask, so masking the lines of which something is
reported (`Text.maskLines`) is the same as masking every line.

A line is read marker by marker (`markerInduction`): it is empty, or a whole marker stands at its
front, or a character that opens none.  `mask_nil`, `mask_marker` and `mask_cons` say what becomes
of it in each case.  A text that does not start with a digit continues no marker, so it is masked
apart from what stands in front of it (`mask_append`).  One that does can be masked apart exactly
if the text in front of it does not end in a marker, or in a `#` that may open one
(`mask_append_iff`).

The placeholder opens no marker with anything around it, so no mask has a marker
(`hasMarker_mask`) and masking again does nothing (`mask_leaves_no_marker`).
-/

namespace Conformance

namespace Text

/-! ## From left to right -/

/-- Whether a `#` is directly followed by an ASCII digit somewhere in the text. -/
def hasMarker : Text → Bool
  | [] => false
  | c :: r => (c == '#' && startsWithDigit r) || hasMarker r

/-- The masked text; with `inMarker`, the digits at its front are dropped. -/
def maskFrom (inMarker : Bool) : Text → Text
  | [] => []
  | c :: r =>
    if inMarker && c.isDigit then maskFrom true r
    else if c == '#' && startsWithDigit r then placeholder ++ maskFrom true r
    else c :: maskFrom false r

@[simp] theorem maskFrom_nil (b : Bool) : maskFrom b [] = [] := rfl

theorem maskFrom_digit {c : Char} (h : c.isDigit = true) (r : Text) :
    maskFrom true (c :: r) = maskFrom true r := by simp [maskFrom, h]

theorem maskFrom_marker {r : Text} (h : startsWithDigit r = true) (b : Bool) :
    maskFrom b ('#' :: r) = placeholder ++ maskFrom true r := by
  have hd : Char.isDigit '#' = false := by decide
  simp [maskFrom, h, hd]

theorem maskFrom_other {c : Char} {r : Text} {b : Bool} (h1 : (b && c.isDigit) = false)
    (h2 : (c == '#' && startsWithDigit r) = false) :
    maskFrom b (c :: r) = c :: maskFrom false r := by simp [maskFrom, h1, h2]

theorem maskFrom_of_not_hasMarker {t : Text} (h : hasMarker t = false) :
    maskFrom false t = t := by
  induction t with
  | nil => rfl
  | cons c r ih =>
    rw [hasMarker, Bool.or_eq_false_iff] at h
    obtain ⟨hc, hr⟩ := h
    rw [maskFrom_other (Bool.false_and _) hc, ih hr]

/-- A digit opens no marker. -/
theorem hasMarker_cons_of_isDigit {c : Char} (h : c.isDigit = true) (r : Text) :
    hasMarker (c :: r) = hasMarker r := by
  have hne : (c == '#') = false := beq_eq_false_iff_ne.mpr fun heq => by simp [heq] at h
  rw [hasMarker, hne, Bool.false_and, Bool.false_or]

theorem collectMasked_eq (t : Text) (inMarker found : Bool) (done : Text) :
    collectMasked inMarker found done t =
      (found || hasMarker t, done.reverse ++ maskFrom inMarker t) := by
  induction t generalizing inMarker found done with
  | nil => simp [collectMasked, hasMarker]
  | cons c r ih =>
    rw [collectMasked, maskFrom]
    by_cases hdigit : (inMarker && c.isDigit) = true
    · have hc : c.isDigit = true := (Bool.and_eq_true_iff.mp hdigit).2
      rw [if_pos hdigit, if_pos hdigit, ih, hasMarker_cons_of_isDigit hc]
    · rw [if_neg hdigit, if_neg hdigit]
      by_cases hmarker : (c == '#' && startsWithDigit r) = true
      · rw [if_pos hmarker, if_pos hmarker, ih, hasMarker, hmarker]
        simp
      · rw [if_neg hmarker, if_neg hmarker, ih, hasMarker, Bool.eq_false_iff.mpr hmarker]
        simp

/-! ## What is reported -/

theorem rewrite?_eq_maskFrom (t : Text) :
    rewrite? t = if hasMarker t then some (maskFrom false t) else none := by
  rw [rewrite?, collectMasked_eq]
  cases hasMarker t <;> rfl

theorem mask_eq (t : Text) : mask t = maskFrom false t := by
  rw [mask, rewrite?_eq_maskFrom]
  cases hmarker : hasMarker t with
  | true => rfl
  | false => exact (maskFrom_of_not_hasMarker hmarker).symm

/-- **The report.** A line is written anew if it has a marker, and then its mask is reported. -/
theorem rewrite?_eq (t : Text) : rewrite? t = if hasMarker t then some (mask t) else none := by
  rw [rewrite?_eq_maskFrom, mask_eq]

/-- A line without a marker is its own mask. -/
theorem mask_of_not_hasMarker {t : Text} (h : hasMarker t = false) : mask t = t := by
  rw [mask_eq, maskFrom_of_not_hasMarker h]

/-- Passing over the lines of which nothing is reported changes nothing. -/
theorem maskLines_eq_map (ls : List Text) : maskLines ls = ls.map mask := by
  unfold maskLines
  refine List.map_congr_left fun l _ => ?_
  rw [mask]
  cases rewrite? l <;> rfl

/-! ## Where the markers are -/

/-- A text has a marker exactly if a `#` stands directly in front of an ASCII digit in it. -/
theorem hasMarker_iff {t : Text} :
    hasMarker t = true ↔ ∃ d, d.isDigit = true ∧ ['#', d] <:+: t := by
  induction t with
  | nil => simp [hasMarker]
  | cons c r ih =>
    rw [hasMarker, Bool.or_eq_true, ih]
    constructor
    · rintro (h | ⟨d, hd, h⟩)
      · rw [Bool.and_eq_true, beq_iff_eq] at h
        obtain ⟨rfl, hr⟩ := h
        cases r with
        | nil => exact absurd hr Bool.false_ne_true
        | cons d r => exact ⟨d, hr, (List.prefix_append ['#', d] r).isInfix⟩
      · exact ⟨d, hd, List.infix_cons h⟩
    · rintro ⟨d, hd, h⟩
      rcases List.infix_cons_iff.mp h with ⟨v, hv⟩ | h
      · refine .inl ?_
        obtain ⟨rfl, rfl⟩ : '#' = c ∧ d :: v = r := List.cons.inj hv
        simpa [startsWithDigit] using hd
      · exact .inr ⟨d, hd, h⟩

/-- A part of a text without a marker has none. -/
theorem not_hasMarker_of_infix {g t : Text} (h : g <:+: t) (ht : hasMarker t = false) :
    hasMarker g = false := by
  rw [← Bool.not_eq_true, hasMarker_iff] at ht ⊢
  rintro ⟨d, hd, hg⟩
  exact ht ⟨d, hd, hg.trans h⟩

/-! ## Marker by marker -/

/-- The number of a marker: one or more ASCII digits. -/
structure IsNumber (d : Text) : Prop where
  ne_nil : d ≠ []
  isDigit : ∀ c ∈ d, c.isDigit = true

theorem startsWithDigit_append {v : Text} (hv : startsWithDigit v = false) (u : Text) :
    startsWithDigit (u ++ v) = startsWithDigit u := by
  cases u with
  | nil => exact hv
  | cons c r => rfl

theorem startsWithDigit_append_of_ne_nil {u : Text} (hu : u ≠ []) (v : Text) :
    startsWithDigit (u ++ v) = startsWithDigit u := by
  cases u with
  | nil => exact absurd rfl hu
  | cons c r => rfl

theorem IsNumber.startsWithDigit_append {d : Text} (hd : IsNumber d) (v : Text) :
    startsWithDigit (d ++ v) = true := by
  cases d with
  | nil => exact absurd rfl hd.ne_nil
  | cons c r => exact hd.isDigit c List.mem_cons_self

/-- A text that starts with a digit starts with a whole number. -/
theorem exists_number {t : Text} (h : startsWithDigit t = true) :
    ∃ d v, t = d ++ v ∧ IsNumber d ∧ startsWithDigit v = false := by
  refine ⟨t.takeWhile Char.isDigit, t.dropWhile Char.isDigit,
    List.takeWhile_append_dropWhile.symm, ⟨?_, List.all_eq_true.mp List.all_takeWhile⟩, ?_⟩
  · cases t with
    | nil => exact absurd h Bool.false_ne_true
    | cons c r => simp [show c.isDigit = true from h]
  · have hv := List.head?_dropWhile_not Char.isDigit t
    cases hr : t.dropWhile Char.isDigit with
    | nil => rfl
    | cons c r =>
      rw [hr] at hv
      exact hv

/-- **Marker by marker.** A text is empty, or it starts with a whole marker, or it starts with a
character that opens none. -/
@[elab_as_elim]
theorem markerInduction {motive : Text → Prop} (nil : motive [])
    (marker : ∀ d v, IsNumber d → startsWithDigit v = false → motive v → motive ('#' :: (d ++ v)))
    (other : ∀ c r, (c == '#' && startsWithDigit r) = false → motive r → motive (c :: r))
    (t : Text) : motive t := by
  -- a marker takes several characters at once, so the induction is on the length
  induction h : t.length using Nat.strongRecOn generalizing t with
  | ind n ih =>
    subst h
    cases t with
    | nil => exact nil
    | cons c r =>
      by_cases hc : (c == '#' && startsWithDigit r) = true
      · rw [Bool.and_eq_true, beq_iff_eq] at hc
        obtain ⟨rfl, hr⟩ := hc
        obtain ⟨d, v, rfl, hd, hv⟩ := exists_number hr
        refine marker d v hd hv (ih v.length ?_ v rfl)
        rw [List.length_cons, List.length_append]
        omega
      · exact other c r (Bool.eq_false_iff.mpr hc) (ih r.length (Nat.lt_succ_self _) r rfl)

@[simp] theorem mask_nil : mask [] = [] := rfl

/-- Digits that belong to a marker are dropped up to the last. -/
theorem maskFrom_number {d v : Text} (hd : ∀ c ∈ d, c.isDigit = true)
    (hv : startsWithDigit v = false) : maskFrom true (d ++ v) = mask v := by
  induction d with
  | nil =>
    rw [List.nil_append, mask_eq]
    cases v with
    | nil => rfl
    | cons c r =>
      have hc : c.isDigit = false := hv
      simp only [maskFrom, hc, Bool.and_false]
  | cons c r ih =>
    rw [List.cons_append, maskFrom_digit (hd c List.mem_cons_self)]
    exact ih fun x hx => hd x (List.mem_cons_of_mem c hx)

theorem mask_marker {d v : Text} (hd : IsNumber d) (hv : startsWithDigit v = false) :
    mask ('#' :: (d ++ v)) = placeholder ++ mask v := by
  rw [mask_eq, maskFrom_marker (hd.startsWithDigit_append v), maskFrom_number hd.isDigit hv]

theorem mask_cons {c : Char} {r : Text} (h : (c == '#' && startsWithDigit r) = false) :
    mask (c :: r) = c :: mask r := by
  rw [mask_eq, maskFrom_other (Bool.false_and _) h, ← mask_eq]

/-- Masking passes over characters that cannot begin a marker. -/
theorem mask_append_of_no_hash {u : Text} (hu : ∀ c ∈ u, c ≠ '#') (r : Text) :
    mask (u ++ r) = u ++ mask r := by
  induction u with
  | nil => rfl
  | cons c u ih =>
    have hc : (c == '#' && startsWithDigit (u ++ r)) = false := by
      simp [hu c List.mem_cons_self]
    rw [List.cons_append, mask_cons hc, ih fun x hx => hu x (List.mem_cons_of_mem c hx),
      List.cons_append]

/-- **Masking in parts.** A marker of the first part does not go on into a second part that does
not start with a digit. -/
theorem mask_append {v : Text} (hv : startsWithDigit v = false) (u : Text) :
    mask (u ++ v) = mask u ++ mask v := by
  induction u using markerInduction with
  | nil => rfl
  | marker d w hd hw ih =>
    have hwv : startsWithDigit (w ++ v) = false := by rwa [startsWithDigit_append hv]
    rw [List.cons_append, List.append_assoc, mask_marker hd hwv, mask_marker hd hw, ih,
      List.append_assoc]
  | other c r hc ih =>
    have hcv : (c == '#' && startsWithDigit (r ++ v)) = false := by rwa [startsWithDigit_append hv]
    rw [List.cons_append, mask_cons hcv, mask_cons hc, ih, List.cons_append]

/-! ## Where a marker is cut -/

/-- A text that ends in a `#`, or in one with digits behind it: a digit that follows goes on with
that marker. -/
def EndsInMarker (u : Text) : Prop := ∃ w d, u = w ++ '#' :: d ∧ ∀ c ∈ d, c.isDigit = true

theorem EndsInMarker.append {r : Text} (h : EndsInMarker r) (u : Text) : EndsInMarker (u ++ r) := by
  obtain ⟨w, d, rfl, hd⟩ := h
  exact ⟨u ++ w, d, (List.append_assoc u w ('#' :: d)).symm, hd⟩

/-- A text that does not end in a marker is masked apart from anything behind it. -/
theorem mask_append_of_not_endsInMarker {u : Text} (hu : ¬ EndsInMarker u) (v : Text) :
    mask (u ++ v) = mask u ++ mask v := by
  induction u using markerInduction with
  | nil => rfl
  | marker d w hd hw ih =>
    -- the number ends inside `u`, so it ends at the same place when `v` follows
    have hne : w ≠ [] := by
      rintro rfl
      exact hu ⟨[], d, by simp, hd.isDigit⟩
    have hwv : startsWithDigit (w ++ v) = false := by rwa [startsWithDigit_append_of_ne_nil hne]
    have hrest : ¬ EndsInMarker w := fun h => hu (h.append ('#' :: d))
    rw [List.cons_append, List.append_assoc, mask_marker hd hwv, mask_marker hd hw, ih hrest,
      List.append_assoc]
  | other c r hc ih =>
    have hrest : ¬ EndsInMarker r := fun h => hu (h.append [c])
    have hcv : (c == '#' && startsWithDigit (r ++ v)) = false := by
      by_cases hr : r = []
      · -- `c` is the last character of the text, so it is no `#` that `v` could make a marker of
        have hhash : c ≠ '#' := by
          rintro rfl
          exact hu ⟨[], [], by rw [hr, List.nil_append], by simp⟩
        simp [hhash]
      · rwa [startsWithDigit_append_of_ne_nil hr]
    rw [List.cons_append, mask_cons hcv, mask_cons hc, ih hrest, List.cons_append]

/-- A marker that is cut is masked as one marker in the whole text, while the digits behind the cut
stay in the parts. -/
theorem mask_append_ne {u v : Text} (hu : EndsInMarker u) (hv : startsWithDigit v = true) :
    mask (u ++ v) ≠ mask u ++ mask v := by
  obtain ⟨w, d, rfl, hd⟩ := hu
  obtain ⟨e, s, rfl, he, hs⟩ := exists_number hv
  have hnumber : IsNumber (d ++ e) := by
    refine ⟨fun h => he.ne_nil (List.append_eq_nil_iff.mp h).2, fun c hc => ?_⟩
    exact (List.mem_append.mp hc).elim (hd c) (he.isDigit c)
  have hwhole : mask (w ++ '#' :: d ++ (e ++ s)) = mask w ++ (placeholder ++ mask s) := by
    have hregroup : w ++ '#' :: d ++ (e ++ s) = w ++ '#' :: (d ++ e ++ s) := by simp
    rw [hregroup, mask_append rfl, mask_marker hnumber hs]
  have hparts : mask (w ++ '#' :: d) ++ mask (e ++ s) =
      mask w ++ (mask ('#' :: d) ++ e ++ mask s) := by
    have hhash : ∀ c ∈ e, c ≠ '#' := by
      rintro c hc rfl
      exact absurd (he.isDigit '#' hc) (by decide)
    rw [mask_append rfl w, mask_append_of_no_hash hhash, List.append_assoc, List.append_assoc]
  intro h
  rw [hwhole, hparts] at h
  -- so the placeholder would end in the digits of `e`, but it holds none
  have hend : placeholder = mask ('#' :: d) ++ e :=
    List.append_cancel_right (List.append_cancel_left h)
  obtain ⟨c, hc⟩ := List.exists_mem_of_ne_nil e he.ne_nil
  have hmem : c ∈ placeholder := by
    rw [hend]
    exact List.mem_append_right _ hc
  have hplain : ∀ c ∈ placeholder, c.isDigit = false := by simp [placeholder]
  exact Bool.noConfusion ((hplain c hmem).symm.trans (he.isDigit c hc))

/-- **Masking in two parts.** A text may be cut and its parts masked one by one exactly if the cut
does not go through a marker: it does if digits stand behind it, and in front of it a `#` or a `#`
with digits. -/
theorem mask_append_iff (u v : Text) :
    mask (u ++ v) = mask u ++ mask v ↔ ¬ (startsWithDigit v = true ∧ EndsInMarker u) := by
  constructor
  · rintro h ⟨hv, hu⟩
    exact mask_append_ne hu hv h
  · intro hcut
    by_cases hv : startsWithDigit v = true
    · exact mask_append_of_not_endsInMarker (fun hu => hcut ⟨hv, hu⟩) v
    · exact mask_append (Bool.eq_false_iff.mpr hv) u

/-- Digits behind the cut go on with the marker only if it has not ended. -/
example : mask "#1".toList ++ mask "2 #3".toList = "#LINE2 #LINE".toList := by decide

/-! ## Masking again -/

/-- The placeholder neither is a marker nor opens one with what stands behind it. -/
theorem hasMarker_placeholder_append (v : Text) :
    hasMarker (placeholder ++ v) = hasMarker v := by
  simp [placeholder, hasMarker, startsWithDigit]

theorem startsWithDigit_mask (t : Text) : startsWithDigit (mask t) = startsWithDigit t := by
  induction t using markerInduction with
  | nil => rfl
  | marker d v hd hv _ =>
    rw [mask_marker hd hv]
    rfl
  | other c r hc _ =>
    rw [mask_cons hc]
    rfl

/-- No mask has a marker. -/
theorem hasMarker_mask (t : Text) : hasMarker (mask t) = false := by
  induction t using markerInduction with
  | nil => rfl
  | marker d v hd hv ih => rw [mask_marker hd hv, hasMarker_placeholder_append, ih]
  | other c r hc ih =>
    -- a `#` that is kept has the same kind of character behind it as before
    rw [mask_cons hc, hasMarker, startsWithDigit_mask, hc, ih, Bool.or_false]

theorem mask_mask (t : Text) : mask (mask t) = mask t := mask_of_not_hasMarker (hasMarker_mask t)

theorem mask_ne_self_iff {t : Text} : mask t ≠ t ↔ hasMarker t = true := by
  constructor
  · intro hchanged
    cases hmarker : hasMarker t with
    | true => rfl
    | false => exact absurd (mask_of_not_hasMarker hmarker) hchanged
  · intro hmarker hself
    have hmask := hasMarker_mask t
    rw [hself, hmarker] at hmask
    exact Bool.noConfusion hmask

/-- **Masking again.** A masked line has no `#` in front of a digit, so masking it again changes
nothing and reports nothing.  A line is reported as rewritten, and then its mask is, exactly if a
`#` stands in front of a digit in it, which is exactly if its mask is another line.  So passing over
the lines of which nothing is reported is masking every line, and doing so twice is doing it
once. -/
theorem mask_leaves_no_marker (s : Text) (ls : List Text) :
    (¬ ∃ d, d.isDigit = true ∧ ['#', d] <:+: mask s) ∧
    mask (mask s) = mask s ∧ hasMarker (mask s) = false ∧ rewrite? (mask s) = none ∧
    rewrite? s = (if hasMarker s then some (mask s) else none) ∧
    (hasMarker s = true ↔ ∃ d, d.isDigit = true ∧ ['#', d] <:+: s) ∧
    (hasMarker s = true ↔ mask s ≠ s) ∧
    maskLines ls = ls.map mask ∧ maskLines (maskLines ls) = maskLines ls := by
  refine ⟨?_, mask_mask s, hasMarker_mask s, ?_, rewrite?_eq s, hasMarker_iff, mask_ne_self_iff.symm,
    maskLines_eq_map ls, ?_⟩
  · rw [← hasMarker_iff, hasMarker_mask]
    exact Bool.false_ne_true
  · rw [rewrite?_eq, hasMarker_mask]
    rfl
  · rw [maskLines_eq_map, maskLines_eq_map, List.map_map]
    exact List.map_congr_left fun l _ => mask_mask l

end Text

/-- The lines of a run with its markers masked. -/
theorem CapturedRun.normalized_lines (run : CapturedRun) (channel : Channel) :
    run.normalized.lines channel = (run.lines channel).map Text.mask := by
  cases channel with
  | stdout => exact Text.maskLines_eq_map run.stdout
  | stderr => exact Text.maskLines_eq_map run.stderr

end Conformance
