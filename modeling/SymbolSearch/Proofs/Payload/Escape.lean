import SymbolSearch.Proofs.Literal.Context
import SymbolSearch.Proofs.Payload.Truncation

/-!
This module contains the proof that no payload is read in which a numeric escape lacks its digits.
-/

namespace SymbolSearch.Payload

open Literal (Context HasDigits Passes Regular Spelled Value numericLetters readLiteral)

theorem Blanks.passes (blanks : Blanks) : Passes .code blanks.text .code := by
  apply Passes.of_all (p := Text.isBlank) (by decide) blanks.all

theorem Assignment.passes (assignment : Assignment) : Passes .code assignment.text .code := by
  have hkeyword : Passes .code assignment.keyword.text .code := by
    apply Passes.of_all (p := Char.isAlpha) (by decide)
    cases assignment.keyword <;> decide
  have hname : Passes .code (assignment.first :: assignment.rest) .code := by
    apply Passes.append (s := [assignment.first])
    · apply Passes.of_all (p := startsName) (by decide)
      simpa using assignment.hfirst
    · apply Passes.of_all (p := continuesName) (by decide +kernel) assignment.hrest
  have hbehind : Passes .code (assignment.behind.text ++ ['=']) .code :=
    assignment.behind.passes.append (.cons rfl .nil)
  apply assignment.before.passes.append
  apply hkeyword.append
  apply assignment.between.passes.append
  exact hname.append hbehind

/-- Neither the byte order mark nor the declaration opens a string or a comment. -/
theorem regular_of_readLiteral {s : List Char} {value : Value}
    (h : readLiteral (literalText (unmarked s)) = .ok value) : Regular .code s := by
  obtain ⟨mark, hmark⟩ := exists_mark_append_unmarked s
  obtain ⟨assignment?, htext⟩ := exists_assignment_append_literalText (unmarked s)
  have hfront : Passes .code ((if mark then ['\uFEFF'] else []) ++ assignment?.elim [] Assignment.text)
      .code := by
    apply Passes.append
    · cases mark with
      | true => exact .cons rfl .nil
      | false => exact .nil
    · cases assignment? with
      | none => exact .nil
      | some assignment => exact assignment.passes
  rw [hmark, htext, ← List.append_assoc]
  apply hfront.regular.append
  rw [hfront.run_eq]
  exact Literal.regular_of_readLiteral h

/--
Where a numeric escape starts in a string of a payload, its digits follow in every payload whose literal
is read. A payload in which anything else follows is refused for a fault.
-/
theorem hasDigits_of_isEscaped {payload : String} {front rest : List Char} {letter : Char}
    (hpayload : payload.toList = front ++ letter :: rest)
    (hescaped : (Context.code.run front).isEscaped) (hletter : letter ∈ numericLetters) :
    (∀ value, Payload.value payload = .ok value → HasDigits letter rest) ∧
      (¬HasDigits letter rest →
        ∃ offset cause, Extraction.ofPayload payload = .error (.fault offset cause)) := by
  have hread : ∀ value, readLiteral (literalText (unmarked payload.toList)) = .ok value →
      HasDigits letter rest := by
    intro value hvalue
    have hregular := regular_of_readLiteral hvalue
    rw [hpayload] at hregular
    exact hregular.hasDigits hescaped hletter
  constructor
  · intro value hvalue
    exact hread value (value_eq_ok_iff.mp hvalue)
  · intro hdigits
    have hne : ∀ value, readLiteral (literalText (unmarked payload.toList)) ≠ .ok value := by
      intro value hvalue
      exact hdigits (hread value hvalue)
    obtain ⟨read, cause, -, hfault⟩ := exists_fault_of_readLiteral_ne_ok hne
    exact ⟨_, cause, hfault⟩

theorem hasDigits_behind_comment :
    (∃ offset cause, Extraction.ofPayload "let a=[/*'\\xq*/['',['f\\x 4',['u']]]];" =
        .error (.fault offset cause)) ∧
      (Context.code.run "let a=[/*'\\".toList).isEscaped = false := by
  have hdigits : ¬HasDigits 'x' " 4',['u']]]];".toList :=
    Literal.not_hasDigits_cons (by decide) (by decide) 'x' _
  have hpayload : "let a=[/*'\\xq*/['',['f\\x 4',['u']]]];".toList =
      "let a=[/*'\\xq*/['',['f\\".toList ++ 'x' :: " 4',['u']]]];".toList := by
    decide
  exact ⟨(hasDigits_of_isEscaped hpayload (by decide) (by decide)).2 hdigits, by decide⟩

/-- The plus sign in front of the digits is no digit, but it is read over. -/
theorem ofPayload_plus :
    (Context.code.run "[['a',['\\".toList).isEscaped ∧
      ¬Spelled 'u' "\x7b+41\x7d',['u']]]]".toList ∧
      Extraction.ofPayload "[['a',['\\u\x7b+41\x7d',['u']]]]" =
        .ok { entries := [⟨"A", "", "u", none⟩], warnings := [], records := 1 } := by
  refine ⟨by decide, Literal.not_spelled_plus _, ?_⟩
  exact Extraction.ofPayload_eq_ok (by decide +kernel)

end SymbolSearch.Payload
