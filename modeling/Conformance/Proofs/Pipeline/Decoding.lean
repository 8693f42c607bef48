import Conformance.Pipeline.Error
import Conformance.Proofs.Text.Decoding

/-!
# Decoding an output

An output is decoded if its bytes are a text.  The fault of any other is the only one that
`Utf8.Fault.Locates` its bytes, and says which part of them is a text and what stands behind it:
`decodeLines_exact`.
-/

namespace Conformance

theorem decodeLines_eq_ok_iff {stage : Stage} {channel : Channel} {bytes : List UInt8}
    {ls : List Text} :
    decodeLines stage channel bytes = .ok ls ↔ ∃ t, Utf8.encode t = bytes ∧ ls = t.lines := by
  simp only [← Utf8.decode?_eq_ok_iff]
  unfold decodeLines
  cases Utf8.decode? bytes with
  | ok t => simp [eq_comm]
  | error f => simp

theorem decodeLines_eq_error_iff {stage : Stage} {channel : Channel} {bytes : List UInt8}
    {e : PipelineError} :
    decodeLines stage channel bytes = .error e ↔
      ∃ f : Utf8.Fault, f.Locates bytes ∧ e = .decode stage channel f := by
  simp only [← Utf8.decode?_eq_error_iff]
  unfold decodeLines
  cases Utf8.decode? bytes with
  | ok t => simp
  | error f => simp [eq_comm]

/-- **Decoding is exact.** An output is decoded exactly if its bytes encode a text, and then into
the lines of that text.  All other bytes are a fault of that stage and output: it stands behind the
longest part that encodes a text, and it is worded by what the bytes behind that part begin. -/
theorem decodeLines_exact (stage : Stage) (channel : Channel) (bytes : List UInt8) :
    (∀ ls, decodeLines stage channel bytes = .ok ls ↔
      ∃ t, Utf8.encode t = bytes ∧ ls = t.lines) ∧
    (∀ e, decodeLines stage channel bytes = .error e ↔
      ∃ f : Utf8.Fault, f.Locates bytes ∧ e = .decode stage channel f) ∧
    ∀ f : Utf8.Fault, f.Locates bytes → ∃ wording : Text,
      (PipelineError.decode stage channel f).message =
        stage.name ++ [' '] ++ channel.name ++ " is not valid UTF-8: ".toList ++ wording ∧
      (Utf8.Begins (bytes.drop f.index) ∧
          wording = "incomplete utf-8 byte sequence from index ".toList ++ Text.ofNat f.index ∨
        ¬ Utf8.Begins (bytes.drop f.index) ∧
          ∃ m, IsGreatest (Utf8.prefixLengths Utf8.Begins (bytes.drop f.index)) m ∧
            wording = "invalid utf-8 sequence of ".toList ++ Text.ofNat (max 1 m) ++
              " bytes from index ".toList ++ Text.ofNat f.index) := by
  exact ⟨fun _ => decodeLines_eq_ok_iff, fun _ => decodeLines_eq_error_iff,
    fun f hf => ⟨f.message, rfl, hf.message⟩⟩

end Conformance
