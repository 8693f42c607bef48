import Mathlib.Data.List.DropRight
import Conformance.Text.Blank

/-!
# Words

A blank cuts a text in two, each with its own words (`words_append_blank`); everything else about
`words` follows from this and from what a text without blanks gives.  A text is read word by word
(`wordInduction`).

Joined with spaces again, the words of a text are the text itself, but for its blanks: those at
both ends are gone (`trimmed`), and each run of others has become one space (`squeezed`).
-/

namespace Conformance.Text

/-- A word that can stand in a line of words. -/
def IsWord (w : Text) : Prop := w ≠ [] ∧ ∀ c ∈ w, isBlank c = false

instance (w : Text) : Decidable w.IsWord :=
  decidable_of_iff (w ≠ [] ∧ w.all (fun c => !isBlank c) = true) (by simp [IsWord])

/-- The words that are read already stay in front. -/
theorem collectWords_eq (done : List Text) (part t : Text) :
    collectWords done part t = done.reverse ++ collectWords [] part t := by
  induction t generalizing done part with
  | nil => by_cases hpart : part.isEmpty <;> simp [collectWords, hpart]
  | cons c r ih =>
    simp only [collectWords]
    split
    · rw [ih, ih (if part.isEmpty then [] else _)]
      by_cases hpart : part.isEmpty <;> simp [hpart]
    · exact ih done (c :: part)

/-- What is not blank belongs to the word that is being read. -/
theorem collectWords_append {w : Text} (hw : ∀ c ∈ w, isBlank c = false) (done : List Text)
    (part rest : Text) :
    collectWords done part (w ++ rest) = collectWords done (w.reverse ++ part) rest := by
  induction w generalizing part with
  | nil => rfl
  | cons c r ih =>
    obtain ⟨hc, hr⟩ := List.forall_mem_cons.mp hw
    rw [List.cons_append, collectWords, if_neg (by simp [hc]), ih hr]
    simp

theorem collectWords_append_blank {c : Char} (hc : isBlank c = true) (done : List Text)
    (part s t : Text) :
    collectWords done part (s ++ c :: t) = collectWords done part s ++ words t := by
  induction s generalizing done part with
  | nil =>
    simp only [List.nil_append, collectWords, if_pos hc]
    rw [collectWords_eq, words]
    by_cases hpart : part.isEmpty <;> simp [hpart]
  | cons d r ih =>
    simp only [List.cons_append, collectWords]
    split
    · exact ih _ _
    · exact ih _ _

@[simp] theorem words_nil : words [] = [] := rfl

/-- **Words are cut at blanks.** -/
theorem words_append_blank {c : Char} (hc : isBlank c = true) (s t : Text) :
    words (s ++ c :: t) = words s ++ words t :=
  collectWords_append_blank hc [] [] s t

theorem words_cons_blank {c : Char} (hc : isBlank c = true) (t : Text) :
    words (c :: t) = words t :=
  words_append_blank hc [] t

theorem words_of_isWord {w : Text} (hw : w.IsWord) : words w = [w] := by
  obtain ⟨hne, hblank⟩ := hw
  have hread := collectWords_append hblank [] [] []
  rw [List.append_nil] at hread
  rw [words, hread]
  simp [collectWords, hne]

/-- The words of texts with a space between neighbours are those of each text. -/
theorem words_join (ts : List Text) : words (join [' '] ts) = ts.flatMap words := by
  induction ts with
  | nil => rfl
  | cons t rest ih =>
    cases rest with
    | nil => simp
    | cons next rest =>
      have hspace : isBlank ' ' = true := by decide
      rw [join_cons_cons, List.append_assoc, List.singleton_append, words_append_blank hspace, ih,
        ← List.flatMap_cons]

/-- Words are their own words. -/
theorem flatMap_words {ws : List Text} (hws : ∀ w ∈ ws, IsWord w) : ws.flatMap words = ws := by
  induction ws with
  | nil => rfl
  | cons w rest ih =>
    obtain ⟨hw, hrest⟩ := List.forall_mem_cons.mp hws
    rw [List.flatMap_cons, words_of_isWord hw, ih hrest, List.singleton_append]

/-! ## Word by word -/

/-- Whether the text starts with a blank. -/
def startsWithBlank : Text → Bool
  | [] => false
  | c :: _ => isBlank c

@[simp] theorem startsWithBlank_cons (c : Char) (r : Text) :
    startsWithBlank (c :: r) = isBlank c := rfl

/-- **Word by word.** A text is empty, or it starts with a blank, or with a word that ends with the
text or in front of a blank. -/
@[elab_as_elim]
theorem wordInduction {motive : Text → Prop} (nil : motive [])
    (blank : ∀ c r, isBlank c = true → motive r → motive (c :: r))
    (word : ∀ w r, IsWord w → (r = [] ∨ startsWithBlank r = true) → motive r → motive (w ++ r))
    (t : Text) : motive t := by
  -- a word takes several characters at once, so the induction is on the length
  induction h : t.length using Nat.strongRecOn generalizing t with
  | ind n ih =>
    subst h
    cases t with
    | nil => exact nil
    | cons c r =>
      by_cases hc : isBlank c = true
      · exact blank c r hc (ih r.length (Nat.lt_succ_self _) r rfl)
      · have hword : IsWord (c :: r.takeWhile (!isBlank ·)) := by
          refine ⟨List.cons_ne_nil _ _, List.forall_mem_cons.mpr ⟨by simpa using hc, ?_⟩⟩
          intro d hd
          simpa using List.mem_takeWhile_imp hd
        have hrest : r.dropWhile (!isBlank ·) = [] ∨
            startsWithBlank (r.dropWhile (!isBlank ·)) = true := by
          have hhead := List.head?_dropWhile_not (!isBlank ·) r
          cases hr : r.dropWhile (!isBlank ·) with
          | nil => exact .inl rfl
          | cons d s =>
            rw [hr] at hhead
            exact .inr (by simpa using hhead)
        have hlength : (r.dropWhile (!isBlank ·)).length < (c :: r).length :=
          Nat.lt_succ_of_le (List.dropWhile_sublist _).length_le
        have hmotive := word _ _ hword hrest (ih _ hlength _ rfl)
        rwa [List.cons_append, List.takeWhile_append_dropWhile] at hmotive

/-- A word in front of a blank is the first word. -/
theorem words_word_append {w r : Text} (hw : w.IsWord) (hr : r = [] ∨ startsWithBlank r = true) :
    words (w ++ r) = w :: words r := by
  cases r with
  | nil => rw [List.append_nil, words_of_isWord hw, words_nil]
  | cons c s =>
    have hc : isBlank c = true := hr.resolve_left (List.cons_ne_nil _ _)
    rw [words_append_blank hc, words_of_isWord hw, words_cons_blank hc, List.singleton_append]

theorem isWord_of_mem_words {t : Text} : ∀ w ∈ words t, IsWord w := by
  induction t using wordInduction with
  | nil => exact fun _ h => nomatch h
  | blank c r hc ih => rwa [words_cons_blank hc]
  | word w r hw hr ih =>
    rw [words_word_append hw hr]
    exact List.forall_mem_cons.mpr ⟨hw, ih⟩

/-- A text has no words exactly if it is blank. -/
theorem words_eq_nil_iff {t : Text} : words t = [] ↔ ∀ c ∈ t, isBlank c = true := by
  induction t using wordInduction with
  | nil => simp
  | blank c r hc ih => rw [words_cons_blank hc, ih, List.forall_mem_cons, and_iff_right hc]
  | word w r hw hr _ =>
    rw [words_word_append hw hr]
    obtain ⟨c, hc⟩ := List.exists_mem_of_ne_nil w hw.1
    apply iff_of_false (List.cons_ne_nil _ _)
    intro hblank
    have hboth := hblank c (List.mem_append_left r hc)
    rw [hw.2 c hc] at hboth
    exact Bool.noConfusion hboth

/-! ## The words joined again -/

/-- A text without the blanks at both ends. -/
def trimmed (t : Text) : Text := (t.dropWhile isBlank).rdropWhile isBlank

/-- A text with one space in the place of each run of blanks. -/
def squeezed : Text → Text
  | [] => []
  | c :: r =>
    if isBlank c then
      if startsWithBlank r then squeezed r else ' ' :: squeezed r
    else c :: squeezed r

example : squeezed (trimmed "\tpython3 \u2003 -u\u00a0 lexer.py\n".toList) =
    "python3 -u lexer.py".toList := by decide

/-- Blanks in front and behind hold no words. -/
theorem words_blank_append {b : Text} (hb : ∀ c ∈ b, isBlank c = true) (t : Text) :
    words (b ++ t) = words t := by
  induction b with
  | nil => rfl
  | cons c r ih =>
    obtain ⟨hc, hr⟩ := List.forall_mem_cons.mp hb
    rw [List.cons_append, words_cons_blank hc, ih hr]

theorem words_append_blanks {b : Text} (hb : ∀ c ∈ b, isBlank c = true) (t : Text) :
    words (t ++ b) = words t := by
  cases b with
  | nil => rw [List.append_nil]
  | cons c r =>
    obtain ⟨hc, hr⟩ := List.forall_mem_cons.mp hb
    rw [words_append_blank hc, words_eq_nil_iff.mpr hr, List.append_nil]

theorem words_trimmed (t : Text) : words (trimmed t) = words t := by
  have hfront : words (t.dropWhile isBlank) = words t := by
    conv_rhs => rw [← List.takeWhile_append_dropWhile (p := isBlank) (l := t)]
    exact (words_blank_append (fun c hc => List.mem_takeWhile_imp hc) _).symm
  rw [← hfront, trimmed]
  conv_rhs => rw [← List.rdropWhile_append_rtakeWhile (p := isBlank) (l := t.dropWhile isBlank)]
  exact (words_append_blanks (fun c hc => List.mem_rtakeWhile_imp hc) _).symm

theorem squeezed_append_of_isWord {w : Text} (hw : ∀ c ∈ w, isBlank c = false) (r : Text) :
    squeezed (w ++ r) = w ++ squeezed r := by
  induction w with
  | nil => rfl
  | cons c s ih =>
    obtain ⟨hc, hs⟩ := List.forall_mem_cons.mp hw
    rw [List.cons_append, squeezed, if_neg (by simp [hc]), ih hs, List.cons_append]

/-- A text that does not end in a blank is squeezed to its words; a run of blanks in front of them
has become a space too. -/
theorem squeezed_eq {t : Text} (hlast : ∀ s c, t = s ++ [c] → isBlank c = false) :
    squeezed t = (if startsWithBlank t then [' '] else []) ++ join [' '] (words t) := by
  induction t using wordInduction with
  | nil => rfl
  | blank c r hc ih =>
    have hr := ih fun s d h => hlast (c :: s) d (by rw [h, List.cons_append])
    rw [squeezed, if_pos hc, startsWithBlank_cons, if_pos hc, words_cons_blank hc, hr]
    split
    · rfl
    · rw [List.nil_append, List.singleton_append]
  | word w r hw hr ih =>
    have hsqueezed := ih fun s d h => hlast (w ++ s) d (by rw [h, List.append_assoc])
    obtain ⟨c, s, rfl⟩ := List.exists_cons_of_ne_nil hw.1
    have hstart : startsWithBlank (c :: s ++ r) = false := hw.2 c List.mem_cons_self
    rw [squeezed_append_of_isWord hw.2, hsqueezed, words_word_append hw hr, hstart]
    rcases hr with rfl | hr
    · simp [startsWithBlank]
    · -- the blanks behind the word are not the last, so another word follows
      cases hwords : words r with
      | nil =>
        have hblank := words_eq_nil_iff.mp hwords
        rcases List.eq_nil_or_concat r with rfl | ⟨u, d, rfl⟩
        · exact Bool.noConfusion hr
        · have hd := hblank d (by simp)
          rw [hlast (c :: s ++ u) d (by simp)] at hd
          exact Bool.noConfusion hd
      | cons next rest => simp [hr, join_cons_cons]

/-- **Joined again**, the words of a text are the text without the blanks at both ends and with one
space for each run of the others. -/
theorem join_words (t : Text) : join [' '] (words t) = squeezed (trimmed t) := by
  have hlast : ∀ s c, trimmed t = s ++ [c] → isBlank c = false := by
    intro s c h
    have hne : trimmed t ≠ [] := by simp [h]
    have hnot := List.rdropWhile_last_not isBlank (t.dropWhile isBlank) hne
    have hc : (trimmed t).getLast hne = c := by simp [h]
    rw [show (List.rdropWhile isBlank (t.dropWhile isBlank)).getLast hne = c from hc] at hnot
    exact Bool.eq_false_iff.mpr hnot
  have hstart : startsWithBlank (trimmed t) = false := by
    cases h : trimmed t with
    | nil => rfl
    | cons c r =>
      obtain ⟨s, hs⟩ := List.rdropWhile_prefix isBlank (l := t.dropWhile isBlank)
      have hhead := List.head?_dropWhile_not isBlank t
      rw [← hs, show List.rdropWhile isBlank (t.dropWhile isBlank) = c :: r from h] at hhead
      simpa using hhead
  rw [squeezed_eq hlast, hstart, words_trimmed]
  rfl

end Conformance.Text
