import Conformance.Arguments.CommandLine
import Conformance.Proofs.Text.Cuts

/-!
# Reading argument by argument

`Grammar.steps` is the reading of some arguments before it is finished, and `readAll` is `steps`
with `finish` behind it.  A long option is read by one of two equations, without an equals sign
(`takeLong_name`) and with one (`takeLong_value`).  An accepted argument list is cut at its command
(`readFrom_eq_ok`).
-/

namespace Conformance

namespace Arguments

theorem map_eq_ok_iff {ε α β : Type} {x : Except ε α} {f : α → β} {b : β} :
    x.map f = .ok b ↔ ∃ a, x = .ok a ∧ f a = b := by
  cases x <;> simp [Except.map]

namespace Grammar

variable {g : Grammar} {r r' : Reading}

/-- The reading behind some arguments, before it is finished. -/
def steps (g : Grammar) (r : Reading) (args : List Text) : Except UsageError Reading :=
  args.foldlM g.step r

@[simp] theorem steps_nil (g : Grammar) (r : Reading) : g.steps r [] = .ok r := rfl

theorem steps_cons (g : Grammar) (r : Reading) (arg : Text) (rest : List Text) :
    g.steps r (arg :: rest) = (g.step r arg).bind (g.steps · rest) := rfl

theorem steps_cons_eq_ok_iff {arg : Text} {rest : List Text} :
    g.steps r (arg :: rest) = .ok r' ↔ ∃ r₁, g.step r arg = .ok r₁ ∧ g.steps r₁ rest = .ok r' := by
  rw [steps_cons]
  cases g.step r arg <;> simp [Except.bind]

theorem steps_append_eq_ok {r₁ : Reading} {front back : List Text} (h : g.steps r front = .ok r₁) :
    g.steps r (front ++ back) = g.steps r₁ back := by
  unfold steps at *
  rw [List.foldlM_append, h]
  rfl

/-- All arguments are read one after another, and then the reading is finished. -/
theorem readAll_eq (g : Grammar) (r : Reading) (args : List Text) :
    g.readAll r args = (g.steps r args).bind g.finish := by
  induction args generalizing r with
  | nil => rfl
  | cons arg rest ih =>
    rw [readAll, steps_cons]
    cases g.step r arg with
    | error e => rfl
    | ok r₁ => exact ih r₁

theorem readAll_eq_ok_iff {args : List Text} :
    g.readAll r args = .ok r' ↔ ∃ r₁, g.steps r args = .ok r₁ ∧ g.finish r₁ = .ok r' := by
  rw [readAll_eq]
  cases g.steps r args <;> simp [Except.bind]

/-! ## Options by their names -/

theorem mem_of_long? {name : Text} {o : Opt} (h : g.long? name = some o) :
    o ∈ g.options ∧ o.long = name :=
  ⟨List.mem_of_find?_eq_some h, by simpa using List.find?_some h⟩

theorem mem_of_short? {c : Char} {o : Opt} (h : g.short? c = some o) :
    o ∈ g.options ∧ o.short = some c :=
  ⟨List.mem_of_find?_eq_some h, by simpa using List.find?_some h⟩

/-! ## Long options -/

/-- A text has no equals sign, or it is cut at the first. -/
theorem no_equals_or_cut (body : Text) :
    '=' ∉ body ∨ ∃ name value, '=' ∉ name ∧ body = name ++ '=' :: value := by
  by_cases h : '=' ∈ body
  · obtain ⟨name, value, heq, hname⟩ := List.eq_append_cons_of_mem h
    exact .inr ⟨name, value, hname, heq⟩
  · exact .inl h

/-- A long option without an equals sign: a flag is complete, any other waits for its value. -/
theorem takeLong_name {name : Text} (h : '=' ∉ name) (r : Reading) :
    g.takeLong name r =
      match g.long? name with
      | none => .error (.unknownArgument ("--".toList ++ name))
      | some o =>
        match o.effect with
        | .valued _ => (g.settle r).map fun r => { r with pending := some (.option o.long, []) }
        | _ => g.take o [] r := by
  unfold takeLong
  rw [Text.takeWhile_of_not_mem h, Text.dropWhile_of_not_mem h]
  dsimp only
  cases g.long? name with
  | none => rfl
  | some o => dsimp only; cases o.effect <;> rfl

/-- A long option with its value behind an equals sign. -/
theorem takeLong_value {name : Text} (h : '=' ∉ name) (value : Text) (r : Reading) :
    g.takeLong (name ++ '=' :: value) r =
      match g.long? name with
      | none => .error (.unknownArgument ("--".toList ++ name))
      | some o =>
        match o.effect with
        | .valued _ => g.take o [value] r
        | _ => .error (.valueUnexpected value o.label) := by
  unfold takeLong
  rw [Text.takeWhile_append_cons h, Text.dropWhile_append_cons h]
  dsimp only
  cases g.long? name with
  | none => rfl
  | some o => dsimp only; cases o.effect <;> rfl

end Grammar

end Arguments

namespace CommandLine

open Arguments

/-- An accepted argument list is cut at its command; what stands in front and what stands behind it
are read each by its own grammar. -/
theorem readFrom_eq_ok {outer : Reading} {args : List Text} {line : CommandLine}
    (h : readFrom outer args = .ok line) :
    ∃ front verb back before after inner, args = front ++ Verb.name verb :: back ∧
      outerGrammar.steps outer front = .ok before ∧ outerGrammar.finish before = .ok after ∧
      verb.grammar.readAll .start back = .ok inner ∧ line = assemble verb after inner := by
  induction args generalizing outer with
  | nil =>
    rw [readFrom] at h
    split at h <;> simp at h
  | cons arg rest ih =>
    rw [readFrom] at h
    split at h
    · split at h <;> simp at h
    · split at h
      · next verb hverb =>
        obtain rfl : verb.name = arg := by simpa using List.find?_some hverb
        unfold readCommand at h
        split at h
        · simp at h
        · next inner hinner =>
          split at h
          · simp at h
          · next after hafter =>
            cases h
            exact ⟨[], verb, rest, outer, after, inner, rfl, rfl, hafter, hinner, rfl⟩
      · split at h
        · simp at h
        · split at h
          · split at h
            · simp at h
            · next between hs =>
              obtain ⟨front, verb, back, before, after, inner, rfl, hfront, hread⟩ := ih h
              exact ⟨arg :: front, verb, back, before, after, inner, rfl,
                Grammar.steps_cons_eq_ok_iff.mpr ⟨between, hs, hfront⟩, hread⟩
          · simp at h

end CommandLine

end Conformance
