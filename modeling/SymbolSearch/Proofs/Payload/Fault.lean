import Mathlib.Control.Monad.Basic
import SymbolSearch.Proofs.Literal.Fault
import SymbolSearch.Proofs.Payload.Truncation

/-!
This module contains the proof that a payload is refused at a place that lies in it, between two of its
characters, and that the message is true there. The declaration in front of the literal and all bytes
of each character are counted.
-/

namespace SymbolSearch.Payload

open Literal (Cause Fault Tells readLiteral)

theorem exists_fault_of_ofPayload {payload : String} {offset : Nat} {cause : Cause}
    (h : Extraction.ofPayload payload = .error (.fault offset cause)) :
    ∃ fault : Fault, readLiteral (literalText (unmarked payload.toList)) = .error fault ∧
      fault.offset (unmarked payload.toList) = offset ∧ fault.cause = cause := by
  rcases bind_eq_error_iff.mp h with hvalue | ⟨value, -, hshape⟩
  · unfold Payload.value at hvalue
    dsimp only at hvalue
    cases hread : readLiteral (literalText (unmarked payload.toList)) with
    | ok =>
      rw [hread] at hvalue
      contradiction
    | error fault =>
      rw [hread] at hvalue
      cases hvalue
      exact ⟨fault, rfl, rfl, rfl⟩
  · cases hvalue : Extraction.ofValue value <;> rw [hvalue] at hshape <;> cases hshape

theorem literalText_suffix (text : List Char) : literalText text <:+ text := by
  obtain ⟨assignment?, htext⟩ := exists_assignment_append_literalText text
  exact ⟨_, htext.symm⟩

/--
The place at which a payload is refused splits the text behind its byte order mark, and the message
tells what stands in front of it and behind it.
-/
theorem tells_of_ofPayload {payload : String} {offset : Nat} {cause : Cause}
    (h : Extraction.ofPayload payload = .error (.fault offset cause)) :
    offset ≤ Text.byteLength (unmarked payload.toList) ∧
      ∃ before rest, unmarked payload.toList = before ++ rest ∧ Text.byteLength before = offset ∧
        Tells cause.message before rest := by
  obtain ⟨fault, hread, rfl, rfl⟩ := exists_fault_of_ofPayload h
  refine ⟨Nat.sub_le _ _, ?_⟩
  obtain ⟨before, htext, htells⟩ :=
    (Literal.fits_of_readLiteral hread).of_suffix (literalText_suffix _)
  refine ⟨before, fault.rest, htext, ?_, htells⟩
  rw [Fault.offset, htext, Text.byteLength_append, Nat.add_sub_cancel]

theorem tells_behind_umlauts :
    Extraction.ofPayload "\uFEFFvar aä=[/*ö*/'ü\\u\x7b'" = .error (.fault 21 .openCodePoint) ∧
      ∃ before rest, "var aä=[/*ö*/'ü\\u\x7b'".toList = before ++ rest ∧
        Text.byteLength before = 21 ∧ Tells "unterminated unicode escape" before rest := by
  have hfault : Extraction.ofPayload "\uFEFFvar aä=[/*ö*/'ü\\u\x7b'" =
      .error (.fault 21 .openCodePoint) := by
    decide +kernel
  exact ⟨hfault, (tells_of_ofPayload hfault).2⟩

end SymbolSearch.Payload
