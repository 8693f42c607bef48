import Conformance.Proofs.Arguments.Steps

/-!
# Flags and their exclusion

A flag is given by its long name or by its letter, and what a reading knows of it is whether an
argument has mentioned it (`steps_tells`).  Two flags that exclude each other are never mentioned
in front of the command together, nor behind it (`read_exclusive`).  The two sides are not compared
with each other: a flag in front of the command and one behind it are accepted
(`read_verbose_silent`).
-/

namespace Conformance

namespace Arguments

/-! ## Mentioning a flag -/

namespace Opt

/-- Whether an argument is the long name of an option, or has its letter among short ones. -/
def namedBy (o : Opt) : Text → Bool
  | '-' :: c :: cs => if c = '-' then cs == o.long else (c :: cs).any (some · == o.short)
  | _ => false

/-- Whether arguments name a flag; those behind two hyphens alone are operands. -/
def mentioned (o : Opt) (args : List Text) : Bool :=
  (args.takeWhile (· ≠ ['-', '-'])).any o.namedBy

theorem mentioned_cons {o : Opt} {arg : Text} (h : arg ≠ ['-', '-']) (rest : List Text) :
    o.mentioned (arg :: rest) = (o.namedBy arg || o.mentioned rest) := by
  simp [mentioned, h]

end Opt

/-- A flag of a grammar, told apart from all other options by its names. -/
structure Grammar.Flag (g : Grammar) (o : Opt) : Prop where
  mem : o ∈ g.options
  effect : o.effect = .flag
  no_equals : '=' ∉ o.long
  eq_of_long : ∀ p ∈ g.options, p.long = o.long → p = o
  eq_of_short : ∀ p ∈ g.options, p.short.isSome → p.short = o.short → p = o

/-- What a reading knows: whether a flag was given, and whether only operands may follow.  A flag
is never left open. -/
structure Reading.Tells (o : Opt) (given trailing : Bool) (r : Reading) : Prop where
  has : r.has (.option o.long) = given
  trailing : r.trailing = trailing
  pending : ∀ texts, r.pending ≠ some (.option o.long, texts)

namespace Reading

theorem start_tells (o : Opt) : start.Tells o false false :=
  ⟨rfl, rfl, fun _ h => by simp [start] at h⟩

theorem any_append_slot (slot s : Slot) (values : List Value) (given : List (Slot × List Value)) :
    (append slot values given).any (·.1 == s) = (given.any (·.1 == s) || slot == s) := by
  induction given with
  | nil => simp [append]
  | cons first rest ih =>
    obtain ⟨t, vs⟩ := first
    rw [append]
    split
    · next h =>
      subst h
      cases hs : t == s <;> simp [hs]
    · rw [List.any_cons, ih, List.any_cons, Bool.or_assoc]

end Reading

namespace Grammar

/-! ## What the steps know of it -/

variable {g : Grammar} {o p : Opt} {given trailing : Bool} {r r' : Reading}

theorem accept_tells {texts : List Text} (hr : r.Tells o given trailing)
    (h : accept p texts r = .ok r') : r'.Tells o (given || p.long == o.long) trailing := by
  have hadd : ∀ vs, Reading.Tells o (given || p.long == o.long) trailing
      { r with given := r.given ++ [(.option p.long, vs)] } := by
    refine fun vs => ⟨?_, hr.trailing, hr.pending⟩
    rw [← hr.has]
    unfold Reading.has
    rw [List.any_append]
    congr 1
    cases hp : p.long == o.long <;> simpa using hp
  unfold accept at h
  split at h
  · simp at h
  · simp at h
  · split at h
    · simp at h
    · cases h
      exact hadd []
  · split at h
    · simp at h
    · split at h
      · simp at h
      · obtain ⟨vs, -, rfl⟩ := map_eq_ok_iff.mp h
        exact hadd vs

theorem settle_tells (hr : r.Tells o given trailing) (h : g.settle r = .ok r') :
    r'.Tells o given trailing := by
  have hclear : Reading.Tells o given trailing { r with pending := none } :=
    ⟨hr.has, hr.trailing, fun _ h => by simp at h⟩
  unfold settle at h
  split at h
  · cases h
    exact hr
  · next slot texts hp =>
    cases slot with
    | option name =>
      have hname : (name == o.long) = false :=
        beq_eq_false_iff_ne.mpr fun heq => hr.pending texts (heq ▸ hp)
      dsimp only at h
      split at h
      · cases h
        exact hclear
      · next q hlong =>
        have ht := accept_tells hclear h
        rwa [(mem_of_long? hlong).2, hname, Bool.or_false] at ht
    | operand =>
      dsimp only at h
      split at h
      · cases h
        exact hclear
      · obtain ⟨vs, -, rfl⟩ := map_eq_ok_iff.mp h
        refine ⟨?_, hclear.trailing, hclear.pending⟩
        show (Reading.append .operand vs r.given).any (·.1 == .option o.long) = given
        rw [Reading.any_append_slot, ← hr.has, Reading.has]
        simp

theorem take_tells {texts : List Text} (hr : r.Tells o given trailing)
    (h : g.take p texts r = .ok r') : r'.Tells o (given || p.long == o.long) trailing := by
  unfold take at h
  split at h
  · simp at h
  · next hs => exact accept_tells (settle_tells hr hs) h

theorem takeOperand_tells {arg : Text} (hr : r.Tells o given trailing)
    (h : g.takeOperand arg r = .ok r') : r'.Tells o given trailing := by
  have hopen : ∀ {s : Reading} (texts : List Text) (n : Nat), s.Tells o given trailing →
      Reading.Tells o given trailing { s with pending := some (.operand, texts), operands := n } :=
    fun texts n hs => ⟨hs.has, hs.trailing, fun _ h => by simp at h⟩
  unfold takeOperand at h
  split at h
  · simp at h
  · split at h
    · cases h
      exact hopen _ _ hr
    · split at h
      · obtain ⟨r₁, hs, rfl⟩ := map_eq_ok_iff.mp h
        exact hopen _ _ (settle_tells hr hs)
      · simp at h

/-- An option that takes a value is not the flag. -/
theorem Flag.long_ne_of_valued (ho : g.Flag o) (hp : p ∈ g.options) {kind : Kind}
    (hkind : p.effect = .valued kind) : (p.long == o.long) = false := by
  refine beq_eq_false_iff_ne.mpr fun heq => ?_
  rw [ho.eq_of_long p hp heq, ho.effect] at hkind
  exact nomatch hkind

theorem takeLong_tells {body : Text} (ho : g.Flag o) (hr : r.Tells o given trailing)
    (h : g.takeLong body r = .ok r') : r'.Tells o (given || body == o.long) trailing := by
  obtain hbody | ⟨name, value, hname, rfl⟩ := no_equals_or_cut body
  · rw [takeLong_name hbody] at h
    split at h
    · simp at h
    · next q hlong =>
      obtain ⟨hmem, rfl⟩ := mem_of_long? hlong
      split at h
      · next kind hkind =>
        obtain ⟨r₁, hs, rfl⟩ := map_eq_ok_iff.mp h
        have ht := settle_tells hr hs
        have hne := ho.long_ne_of_valued hmem hkind
        rw [hne, Bool.or_false]
        exact ⟨ht.has, ht.trailing, fun texts heq => by simp_all⟩
      · exact take_tells hr h
  · have hflag : (name ++ '=' :: value == o.long) = false := by
      refine beq_eq_false_iff_ne.mpr fun heq => ho.no_equals ?_
      rw [← heq]
      exact List.mem_append_right _ List.mem_cons_self
    rw [takeLong_value hname] at h
    split at h
    · simp at h
    · next q hlong =>
      split at h
      · next kind hkind =>
        have ht := take_tells hr h
        rwa [ho.long_ne_of_valued (mem_of_long? hlong).1 hkind, ← hflag] at ht
      · simp at h

theorem takeShorts_tells {letters : Text} (ho : g.Flag o) (hr : r.Tells o given trailing)
    (h : g.takeShorts letters r = .ok r') :
    r'.Tells o (given || letters.any (some · == o.short)) trailing := by
  induction letters generalizing r given with
  | nil =>
    cases h
    rwa [List.any_nil, Bool.or_false]
  | cons c cs ih =>
    rw [takeShorts] at h
    split at h
    · simp at h
    · next q hshort =>
      obtain ⟨hmem, hc⟩ := mem_of_short? hshort
      have hq : (q.long == o.long) = (some c == o.short) := by
        rw [Bool.eq_iff_iff, beq_iff_eq, beq_iff_eq]
        refine ⟨fun heq => ?_, fun heq => ?_⟩
        · rw [← ho.eq_of_long q hmem heq, hc]
        · rw [ho.eq_of_short q hmem (by rw [hc]; rfl) (hc.trans heq)]
      split at h
      · simp at h
      · next r₁ hs =>
        have ht := take_tells hr hs
        rw [hq] at ht
        rw [List.any_cons, ← Bool.or_assoc]
        exact ih ht h

/-- **One argument** in front of two hyphens alone. -/
theorem step_tells {arg : Text} (ho : g.Flag o) (hr : r.Tells o given false)
    (harg : arg ≠ ['-', '-']) (h : g.step r arg = .ok r') :
    r'.Tells o (given || o.namedBy arg) false := by
  unfold step at h
  rw [if_neg (by simp [hr.trailing])] at h
  split at h
  · exact absurd rfl harg
  · exact takeLong_tells ho hr h
  · next c cs _ hc =>
    rw [Opt.namedBy, if_neg hc]
    exact takeShorts_tells ho hr h
  · next _ _ hshort =>
    have hnamed : o.namedBy arg = false := by
      unfold Opt.namedBy
      split
      · exact (hshort _ _ rfl).elim
      · rfl
    rw [hnamed, Bool.or_false]
    split at h
    · next name hpending =>
      cases h
      refine ⟨hr.has, hr.trailing, fun texts heq => ?_⟩
      cases heq
      exact hr.pending [] hpending
    · exact takeOperand_tells hr h

/-- Behind two hyphens alone, no argument is a flag. -/
theorem steps_tells_of_trailing {args : List Text} (hr : r.Tells o given true)
    (h : g.steps r args = .ok r') : r'.Tells o given true := by
  induction args generalizing r with
  | nil =>
    cases h
    exact hr
  | cons arg rest ih =>
    obtain ⟨r₁, hs, hrest⟩ := steps_cons_eq_ok_iff.mp h
    unfold step at hs
    rw [if_pos hr.trailing] at hs
    exact ih (takeOperand_tells hr hs) hrest

/-- **All arguments.** A reading knows a flag exactly if the arguments mention it. -/
theorem steps_tells {args : List Text} (ho : g.Flag o) (hr : r.Tells o given false)
    (h : g.steps r args = .ok r') : ∃ trailing, r'.Tells o (given || o.mentioned args) trailing := by
  induction args generalizing r given with
  | nil =>
    cases h
    exact ⟨false, by rwa [Opt.mentioned, List.takeWhile_nil, List.any_nil, Bool.or_false]⟩
  | cons arg rest ih =>
    obtain ⟨r₁, hs, hrest⟩ := steps_cons_eq_ok_iff.mp h
    by_cases harg : arg = ['-', '-']
    · subst harg
      rw [step, if_neg (by simp [hr.trailing])] at hs
      cases hs
      refine ⟨true, ?_⟩
      have hnone : o.mentioned (['-', '-'] :: rest) = false := by simp [Opt.mentioned]
      rw [hnone, Bool.or_false]
      have htrailing : Reading.Tells o given true { r with trailing := true } :=
        ⟨hr.has, rfl, hr.pending⟩
      exact steps_tells_of_trailing htrailing hrest
    · rw [Opt.mentioned_cons harg, ← Bool.or_assoc]
      exact ih (step_tells ho hr harg hs) hrest

/-! ## Exclusion -/

/-- Where no exclusion is reported, of two options that exclude each other one is missing. -/
theorem not_has_of_conflict? {q : Opt} (h : g.conflict? r = none) (hp : p ∈ g.options)
    (hq : q ∈ g.options) (hpq : (p.long, q.long) ∈ g.conflicts)
    (hhas : r.has (.option p.long) = true) : r.has (.option q.long) = false := by
  obtain ⟨⟨slot, values⟩, hmem, hslot⟩ := List.any_eq_true.mp hhas
  obtain rfl : slot = .option p.long := by simpa using hslot
  rw [conflict?, List.findSome?_eq_none_iff] at h
  have hnone := List.findSome?_eq_none_iff.mp
    (List.findSome?_eq_none_iff.mp (h _ hmem) p hp) q hq
  by_contra hboth
  rw [if_pos ⟨rfl, by simpa using hboth, .inl hpq⟩] at hnone
  exact nomatch hnone

/-- The end of the reading keeps what is known of a flag, and finds no two options that exclude
each other. -/
theorem finish_tells (hr : r.Tells o given trailing) (h : g.finish r = .ok r') :
    r'.has (.option o.long) = given ∧ g.conflict? r' = none := by
  unfold finish at h
  split at h
  · simp at h
  · next r₁ hs =>
    split at h
    · simp at h
    · next hc =>
      split at h
      · simp at h
      · cases h
        exact ⟨(settle_tells hr hs).has, hc⟩

/-- Of two flags that exclude each other, one is not mentioned among arguments that are read. -/
theorem not_mentioned_of_conflict {q : Opt} {args : List Text} {r₁ : Reading} (hp : g.Flag p)
    (hq : g.Flag q) (hpq : (p.long, q.long) ∈ g.conflicts) (hs : g.steps .start args = .ok r₁)
    (h : g.finish r₁ = .ok r') :
    r'.has (.option p.long) = p.mentioned args ∧ r'.has (.option q.long) = q.mentioned args ∧
      ¬ (p.mentioned args = true ∧ q.mentioned args = true) := by
  obtain ⟨_, htp⟩ := steps_tells hp (Reading.start_tells p) hs
  obtain ⟨_, htq⟩ := steps_tells hq (Reading.start_tells q) hs
  rw [Bool.false_or] at htp htq
  obtain ⟨hhasp, hconflict⟩ := finish_tells htp h
  obtain ⟨hhasq, -⟩ := finish_tells htq h
  refine ⟨hhasp, hhasq, fun ⟨hmp, hmq⟩ => ?_⟩
  have hnone := not_has_of_conflict? hconflict hp.mem hq.mem hpq (hhasp.trans hmp)
  rw [hhasq, hmq] at hnone
  exact nomatch hnone

end Grammar

end Arguments

namespace CommandLine

open Arguments

/-- The flag that asks for more to be said. -/
def verboseFlag : Opt := ⟨verboseName, some 'v', .flag⟩

/-- The flag that asks for less to be said. -/
def silentFlag : Opt := ⟨silentName, some 's', .flag⟩

theorem outerGrammar_verbose : outerGrammar.Flag verboseFlag := by
  constructor <;> decide

theorem outerGrammar_silent : outerGrammar.Flag silentFlag := by
  constructor <;> decide

theorem Verb.grammar_verbose (verb : Verb) : verb.grammar.Flag verboseFlag := by
  cases verb <;> constructor <;> decide

theorem Verb.grammar_silent (verb : Verb) : verb.grammar.Flag silentFlag := by
  cases verb <;> constructor <;> decide

/-- **Exclusion.** An accepted argument list is cut at its command so that a flag is set exactly if
one of the two sides mentions it, and neither side mentions both the verbose and the silent flag.
So both are set only if one of them stands in front of the command and the other behind it. -/
theorem read_exclusive {args : List Text} {line : CommandLine} (h : read args = .ok line) :
    ∃ front verb back, args = front ++ Verb.name verb :: back ∧
      line.verbose = (verboseFlag.mentioned front || verboseFlag.mentioned back) ∧
      line.silent = (silentFlag.mentioned front || silentFlag.mentioned back) ∧
      ¬ (silentFlag.mentioned front = true ∧ verboseFlag.mentioned front = true) ∧
      ¬ (silentFlag.mentioned back = true ∧ verboseFlag.mentioned back = true) := by
  obtain ⟨front, verb, back, before, after, inner, hargs, hbefore, hafter, hread, rfl⟩ :=
    readFrom_eq_ok h
  obtain ⟨behind, hbehind, hinner⟩ := Grammar.readAll_eq_ok_iff.mp hread
  obtain ⟨hs, hv, hfront⟩ := Grammar.not_mentioned_of_conflict outerGrammar_silent
    outerGrammar_verbose (by decide) hbefore hafter
  obtain ⟨hs', hv', hback⟩ := Grammar.not_mentioned_of_conflict verb.grammar_silent
    verb.grammar_verbose (by cases verb <;> decide) hbehind hinner
  refine ⟨front, verb, back, hargs, ?_, ?_, hfront, hback⟩
  · exact congrArg₂ (· || ·) hv hv'
  · exact congrArg₂ (· || ·) hs hs'

/-- With one flag in front of the command and one behind it, neither side mentions both. -/
theorem read_exclusive_across :
    let args : List Text := ["-v".toList, "dir".toList, "-s".toList]
    ∃ line, read args = .ok line ∧ ∃ front verb back, args = front ++ Verb.name verb :: back ∧
      (verboseFlag.mentioned front || verboseFlag.mentioned back) = true ∧
      (silentFlag.mentioned front || silentFlag.mentioned back) = true ∧
      ¬ (silentFlag.mentioned front = true ∧ verboseFlag.mentioned front = true) ∧
      ¬ (silentFlag.mentioned back = true ∧ verboseFlag.mentioned back = true) := by
  intro args
  obtain ⟨line, hline, hv, hs⟩ : ∃ line, read args = .ok line ∧ line.verbose = true ∧
      line.silent = true := ⟨_, rfl, rfl, rfl⟩
  obtain ⟨front, verb, back, hargs, hverbose, hsilent, hfront, hback⟩ := read_exclusive hline
  exact ⟨line, hline, front, verb, back, hargs, hverbose ▸ hv, hsilent ▸ hs, hfront, hback⟩

/-- The verbose flag in front of the command and the silent one behind it are accepted, and the
command line has both. -/
theorem read_verbose_silent :
    ∃ line, read ["-v".toList, "dir".toList, "-s".toList] = .ok line ∧
      line.verbose = true ∧ line.silent = true :=
  ⟨_, rfl, rfl, rfl⟩

end CommandLine

end Conformance
