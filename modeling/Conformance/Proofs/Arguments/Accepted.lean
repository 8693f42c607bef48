import Conformance.Proofs.Arguments.Steps

/-!
# Accepted command lines

What is known of an argument list that is read as a command line.  `Reading.Sound` is kept by every
step of the reading (`step_sound`) and so holds when it is finished (`readAll_sound`); a command
that needs an operand has then been given one, so no accepted command lists no files
(`read_command_ne_files_nil`).
-/

namespace Conformance

namespace Arguments

/-- Operands that have been begun or given are there: at least one text, and at least one path. -/
structure Reading.Sound (r : Reading) : Prop where
  pending : ∀ texts, r.pending = some (.operand, texts) → texts ≠ []
  given : ∀ values, (Slot.operand, values) ∈ r.given → ∃ p, Value.path p ∈ values

theorem Reading.start_sound : Reading.start.Sound :=
  ⟨fun _ h => absurd h (by simp [start]), fun _ h => absurd h (by simp [start])⟩

theorem Reading.mem_append {slot s : Slot} {values vs : List Value}
    {given : List (Slot × List Value)} (h : (s, vs) ∈ append slot values given) :
    (s, vs) ∈ given ∨ ∃ old, vs = old ++ values := by
  induction given with
  | nil =>
    rw [append, List.mem_singleton] at h
    cases h
    exact .inr ⟨[], rfl⟩
  | cons first rest ih =>
    obtain ⟨t, us⟩ := first
    rw [append] at h
    split at h
    · rcases List.mem_cons.mp h with heq | hrest
      · cases heq
        exact .inr ⟨us, rfl⟩
      · exact .inl (List.mem_cons_of_mem _ hrest)
    · rcases List.mem_cons.mp h with heq | hrest
      · cases heq
        exact .inl List.mem_cons_self
      · exact (ih hrest).imp_left (List.mem_cons_of_mem _)

namespace Grammar

/-- The first of some paths is among the values that are read. -/
theorem readValues_path {label : Text} {texts : List Text} {values : List Value}
    (hne : texts ≠ []) (h : readValues label .path texts = .ok values) :
    ∃ p, Value.path p ∈ values := by
  cases texts with
  | nil => exact absurd rfl hne
  | cons t ts =>
    by_cases ht : t.isEmpty = true
    · simp [readValues, Kind.read, ht] at h
    · simp only [readValues, Kind.read, ht, Bool.false_eq_true, if_false] at h
      obtain ⟨vs, -, rfl⟩ := map_eq_ok_iff.mp h
      exact ⟨.ofText t, List.mem_cons_self⟩

/-! ## Every step keeps it -/

variable {g : Grammar} {r r' : Reading}

theorem accept_sound {o : Opt} {texts : List Text} (hr : r.Sound)
    (h : accept o texts r = .ok r') : r'.Sound := by
  have hadd : ∀ vs, Reading.Sound { r with given := r.given ++ [(.option o.long, vs)] } :=
    fun vs => ⟨hr.pending, fun values hv => by
      rcases List.mem_append.mp hv with hv | hv
      · exact hr.given values hv
      · simp at hv⟩
  unfold accept at h
  split at h
  · simp at h
  · simp at h
  · split at h
    · simp at h
    · cases h
      exact hadd []
  · split at h
    · simp at h
    · split at h
      · simp at h
      · obtain ⟨vs, -, rfl⟩ := map_eq_ok_iff.mp h
        exact hadd vs

theorem settle_sound (hr : r.Sound) (h : g.settle r = .ok r') : r'.Sound := by
  have hclear : Reading.Sound { r with pending := none } :=
    ⟨fun _ h => absurd h (by simp), hr.given⟩
  unfold settle at h
  split at h
  · cases h
    exact hr
  · next slot texts hp =>
    cases slot with
    | option name =>
      dsimp only at h
      split at h
      · cases h
        exact hclear
      · exact accept_sound hclear h
    | operand =>
      dsimp only at h
      split at h
      · cases h
        exact hclear
      · obtain ⟨vs, hvs, rfl⟩ := map_eq_ok_iff.mp h
        refine ⟨hclear.pending, fun values hv => ?_⟩
        rcases Reading.mem_append hv with hv | ⟨old, rfl⟩
        · exact hr.given values hv
        · obtain ⟨p, hpath⟩ := readValues_path (hr.pending texts hp) hvs
          exact ⟨p, List.mem_append_right _ hpath⟩

theorem take_sound {o : Opt} {texts : List Text} (hr : r.Sound)
    (h : g.take o texts r = .ok r') : r'.Sound := by
  unfold take at h
  split at h
  · simp at h
  · next hs => exact accept_sound (settle_sound hr hs) h

theorem takeOperand_sound {arg : Text} (hr : r.Sound) (h : g.takeOperand arg r = .ok r') :
    r'.Sound := by
  unfold takeOperand at h
  split at h
  · simp at h
  · split at h
    · cases h
      exact ⟨fun texts h => by cases h; simp, hr.given⟩
    · split at h
      · obtain ⟨r₁, hs, rfl⟩ := map_eq_ok_iff.mp h
        exact ⟨fun texts h => by cases h; simp, (settle_sound hr hs).given⟩
      · simp at h

theorem takeLong_sound {body : Text} (hr : r.Sound) (h : g.takeLong body r = .ok r') :
    r'.Sound := by
  unfold takeLong at h
  dsimp only at h
  split at h
  · simp at h
  · split at h
    · exact take_sound hr h
    · obtain ⟨r₁, hs, rfl⟩ := map_eq_ok_iff.mp h
      exact ⟨fun texts h => by simp at h, (settle_sound hr hs).given⟩
    · simp at h
    · exact take_sound hr h

theorem takeShorts_sound {cs : Text} (hr : r.Sound) (h : g.takeShorts cs r = .ok r') :
    r'.Sound := by
  induction cs generalizing r with
  | nil =>
    cases h
    exact hr
  | cons c cs ih =>
    rw [takeShorts] at h
    split at h
    · simp at h
    · split at h
      · simp at h
      · next hs => exact ih (take_sound hr hs) h

/-- **One argument.** -/
theorem step_sound {arg : Text} (hr : r.Sound) (h : g.step r arg = .ok r') : r'.Sound := by
  unfold step at h
  split at h
  · exact takeOperand_sound hr h
  · split at h
    · cases h
      exact ⟨hr.pending, hr.given⟩
    · exact takeLong_sound hr h
    · exact takeShorts_sound hr h
    · split at h
      · cases h
        exact ⟨fun texts h => by simp at h, hr.given⟩
      · exact takeOperand_sound hr h

/-- The end of the reading settles what was begun, and finds the operand that is required. -/
theorem finish_sound (hr : r.Sound) (h : g.finish r = .ok r') :
    r'.Sound ∧ (g.operand.any (·.required) = true → r'.has .operand = true) := by
  unfold finish at h
  split at h
  · simp at h
  · next r₁ hs =>
    split at h
    · simp at h
    · split at h
      · simp at h
      · next hmissing =>
        cases h
        refine ⟨settle_sound hr hs, fun hreq => ?_⟩
        simpa [hreq] using hmissing

/-- **All arguments.** -/
theorem readAll_sound {args : List Text} (hr : r.Sound) (h : g.readAll r args = .ok r') :
    r'.Sound ∧ (g.operand.any (·.required) = true → r'.has .operand = true) := by
  induction args generalizing r with
  | nil => exact finish_sound hr h
  | cons arg rest ih =>
    rw [readAll] at h
    split at h
    · simp at h
    · next hs => exact ih (step_sound hr hs) h

end Grammar

end Arguments

namespace CommandLine

open Arguments

/-- The operands of a reading that has some. -/
theorem operandsOf_ne_nil {r : Reading} (hr : r.Sound) (h : r.has .operand = true) :
    operandsOf r ≠ [] := by
  obtain ⟨⟨slot, values⟩, hfind⟩ : ∃ x, r.given.find? (·.1 == .operand) = some x :=
    Option.isSome_iff_exists.mp (by rw [List.find?_isSome]; simpa [Reading.has] using h)
  obtain rfl : slot = .operand := by simpa using List.find?_some hfind
  obtain ⟨p, hp⟩ := hr.given values (List.mem_of_find?_eq_some hfind)
  have hmem : p ∈ operandsOf r := by
    unfold operandsOf Reading.find?
    rw [hfind]
    exact List.mem_filterMap.mpr ⟨.path p, hp, rfl⟩
  exact List.ne_nil_of_mem hmem

/-- **No empty list of files.** An accepted command that lists files lists at least one. -/
theorem read_command_ne_files_nil {args : List Text} {line : CommandLine}
    (h : read args = .ok line) (corpus : Path) (o : ToolchainOptions) :
    line.command ≠ .files [] corpus o := by
  obtain ⟨front, verb, back, before, after, inner, -, -, -, hinner, rfl⟩ := readFrom_eq_ok h
  obtain ⟨hsound, hoperand⟩ := Grammar.readAll_sound Reading.start_sound hinner
  intro hcommand
  cases verb with
  | dir => simp [assemble, commandFrom] at hcommand
  | smoke => simp [assemble, commandFrom] at hcommand
  | files =>
    simp only [assemble, commandFrom, Command.files.injEq] at hcommand
    exact operandsOf_ne_nil hsound (hoperand rfl) hcommand.1

end CommandLine

end Conformance
