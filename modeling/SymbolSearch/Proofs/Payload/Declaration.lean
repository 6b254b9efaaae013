import SymbolSearch.Proofs.Payload.Truncation

/-!
This module contains the proof that what stands in front of the literal of a payload changes nothing
about what is extracted: neither a byte order mark, which is not counted, nor a declaration, which only
moves the place of a fault on.
-/

namespace SymbolSearch

/--
The same error where a number of bytes stands in front of the text. Records are counted from the start
of the literal, so they keep their numbers.
-/
def PayloadError.shift (count : Nat) : PayloadError → PayloadError
  | fault offset cause => fault (count + offset) cause
  | misshape record defect => misshape record defect

theorem Literal.Fault.offset_append {fault : Fault} {text : List Char} (h : fault.rest <:+ text)
    (front : List Char) :
    fault.offset (front ++ text) = Text.byteLength front + fault.offset text := by
  obtain ⟨read, rfl⟩ := h
  unfold offset
  rw [Text.byteLength_append, Text.byteLength_append]
  omega

theorem Extraction.ofPayload_shift {payload shifted : String} {count : Nat}
    (h : Payload.value shifted = (Payload.value payload).mapError (.shift count)) :
    ofPayload shifted = (ofPayload payload).mapError (.shift count) := by
  unfold ofPayload
  rw [h]
  cases Payload.value payload with
  | error => rfl
  | ok value =>
    simp only [bind, Except.bind, Except.mapError]
    cases ofValue value <;> rfl

namespace Payload

open Literal (readLiteral)
open Text (Stops)

variable {payload : String}

theorem value_of_unmarked {text : List Char} (h : unmarked payload.toList = text) :
    value payload = (readLiteral (literalText text)).mapError fun fault =>
      .fault (fault.offset text) fault.cause := by
  rw [← h]
  rfl

theorem value_mark_append (hmark : Stops (· == '\uFEFF') payload.toList) :
    value ("\uFEFF" ++ payload) = value payload := by
  have hmarked : unmarked ("\uFEFF" ++ payload).toList = payload.toList := by
    rw [String.toList_append]
    rfl
  rw [value_of_unmarked hmarked, value_of_unmarked (unmarked_of_stops hmark)]

theorem value_assignment_append (assignment : Assignment)
    (hmark : Stops (· == '\uFEFF') payload.toList) (hnone : afterAssignment? payload.toList = none) :
    value (.ofList assignment.text ++ payload) =
      (value payload).mapError (.shift (Text.byteLength assignment.text)) := by
  have hunmarked : unmarked (String.ofList assignment.text ++ payload).toList =
      assignment.text ++ payload.toList := by
    rw [String.toList_append, String.toList_ofList, unmarked_of_stops (assignment.stops_mark _)]
  have hliteral : literalText payload.toList = payload.toList := by
    rw [literalText, hnone, Option.getD_none]
  rw [value_of_unmarked hunmarked, value_of_unmarked (unmarked_of_stops hmark), hliteral,
    assignment.literalText_append]
  cases hread : readLiteral payload.toList with
  | ok => rfl
  | error fault =>
    have hoffset := fault.offset_append (Literal.rest_suffix_of_readLiteral_eq_error hread)
      assignment.text
    simp only [Except.mapError, hoffset, PayloadError.shift]

/--
A byte order mark in front of a payload makes no difference at all. A declaration in front of a literal
leaves what is extracted and what is wrong with it as it is, and a fault comes later by exactly the bytes
of the declaration.
-/
theorem ofPayload_front (hmark : payload.toList.head? ≠ some '\uFEFF') :
    Extraction.ofPayload ("\uFEFF" ++ payload) = Extraction.ofPayload payload ∧
      ((∀ (assignment : Assignment) (r : List Char), payload.toList ≠ assignment.text ++ r) →
        ∀ assignment : Assignment,
          Extraction.ofPayload (.ofList assignment.text ++ payload) =
            (Extraction.ofPayload payload).mapError (.shift (Text.byteLength assignment.text))) := by
  have hstops : Stops (· == '\uFEFF') payload.toList := Text.stops_beq_iff.mpr hmark
  constructor
  · unfold Extraction.ofPayload
    rw [value_mark_append hstops]
  · intro hnone assignment
    apply Extraction.ofPayload_shift
    exact value_assignment_append assignment hstops (afterAssignment?_eq_none_iff.mpr hnone)

def Assignment.wide : Assignment where
  before := ⟨['\u00A0'], by decide⟩
  keyword := .const
  between := ⟨['\u2003'], by decide⟩
  hbetween := by simp
  first := '_'
  hfirst := by decide
  rest := ['ü', '$']
  hrest := by decide +kernel
  behind := ⟨['\n'], by decide⟩

theorem ofPayload_behind_wide :
    Extraction.ofPayload "/*ö=*/['ü" = .error (.fault 11 .openString) ∧
      Extraction.ofPayload "\uFEFF/*ö=*/['ü" = .error (.fault 11 .openString) ∧
      Extraction.ofPayload "\u00A0const\u2003_ü$\n=/*ö=*/['ü" = .error (.fault 27 .openString) := by
  have hfault : Extraction.ofPayload "/*ö=*/['ü" = .error (.fault 11 .openString) := by
    decide +kernel
  have hnone : afterAssignment? "/*ö=*/['ü".toList = none := by
    decide
  have hhead : "/*ö=*/['ü".toList.head? ≠ some '\uFEFF' := by
    decide
  obtain ⟨hmark, hassignment⟩ := ofPayload_front hhead
  have hwide := hassignment (afterAssignment?_eq_none_iff.mp hnone) .wide
  rw [hfault] at hmark hwide
  exact ⟨hfault, hmark, hwide⟩

end Payload

end SymbolSearch
