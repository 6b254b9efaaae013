import SymbolSearch.Literal.Reader
import SymbolSearch.Proofs.Literal.Quoted
import SymbolSearch.Proofs.Literal.Trivia
import SymbolSearch.Proofs.Text.Blank

/-!
This module contains the proof that every value that is not an array is read back from every way to
write it.
-/

namespace SymbolSearch.Literal

open Text (Stops)

/--
The characters that a number or a bare word can go on with.
-/
def continuesToken (c : Char) : Bool :=
  isNumberChar c || isNameChar c

theorem continuesToken_of_isBlank {c : Char} (h : Text.isBlank c) : continuesToken c = false := by
  apply Text.forall_of_isBlank (motive := fun c => continuesToken c = false) _ h
  decide

theorem Gaps.stops_continuesToken (gaps : Gaps) {s : List Char} (h : Stops continuesToken s) :
    Stops continuesToken (gaps.text ++ s) :=
  gaps.stops_text_append continuesToken_of_isBlank (by decide) h

theorem startsGap_of_isDigit {c : Char} (h : c.isDigit) : startsGap c = false := by
  rw [Bool.eq_false_iff]
  intro hgap
  simp only [startsGap, Bool.or_eq_true, beq_iff_eq] at hgap
  rcases hgap with hblank | rfl
  · have hstops := continuesToken_of_isBlank hblank
    simp [continuesToken, isNumberChar, h] at hstops
  · contradiction

theorem splitSign_of_isDigit {c : Char} (h : c.isDigit) (r : List Char) :
    splitSign (c :: r) = (false, c :: r) := by
  unfold splitSign
  split
  · next heq =>
    cases heq
    contradiction
  · next heq =>
    cases heq
    contradiction
  · rfl

theorem number?_digits {negative : Bool} {digits text : List Char} (hne : digits ≠ [])
    (hall : digits.all Char.isDigit) (hfits : isWord64 (signed negative (Text.numeral 10 digits)))
    (htext : splitSign text = (negative, digits)) :
    number? text = some (.integer (signed negative (Text.numeral 10 digits))) := by
  have hinteger : integer? text = some (signed negative (Text.numeral 10 digits)) := by
    unfold integer?
    rw [htext]
    simp [hne, hall]
  unfold number?
  rw [hinteger]
  simp [hfits]

theorem readNumber_append {c : Char} {r s : List Char} {value : Value}
    (hr : ∀ d ∈ r, isNumberChar d) (hs : Stops isNumberChar s) (h : number? (c :: r) = some value) :
    readNumber c (r ++ s) = .ok (value, s) := by
  unfold readNumber
  rw [Text.takeWhile_append_of_stops hr hs, Text.dropWhile_append_of_stops hr hs]
  dsimp only
  rw [h]

theorem readWord_append {c : Char} {r s : List Char} {value : Value} (hr : r.all isNameChar)
    (hs : Stops isNameChar s) (h : wordValue? (.ofList (c :: r)) = some value) :
    readWord c (r ++ s) = .ok (value, s) := by
  have hrow : ∀ d ∈ r, isNameChar d := List.all_eq_true.mp hr
  unfold readWord
  rw [Text.takeWhile_append_of_stops hrow hs, Text.dropWhile_append_of_stops hrow hs]
  dsimp only
  rw [h]

theorem readValue_number (item? : Option (Reader Value)) {c : Char} (h : c = '-' ∨ c.isDigit)
    (s : List Char) : readValue item? (c :: s) = readNumber c s := by
  have hne : c ≠ '[' ∧ ¬(c = '"' ∨ c = '\'') := by
    rcases h with rfl | h
    · decide
    · refine ⟨?_, ?_⟩
      · rintro rfl
        contradiction
      · rintro (rfl | rfl) <;> contradiction
  unfold readValue
  dsimp only
  rw [if_neg hne.1, if_neg hne.2, if_pos h]

theorem readValue_quote (item? : Option (Reader Value)) (quote : Quote) (s : List Char) :
    readValue item? (quote.char :: s) =
      mapRead (.string ∘ .ofList) (stringBody quote.char s []) := by
  cases quote <;> rfl

theorem Rendering.readValue_text_append (rendering : Rendering) (item? : Option (Reader Value))
    (h : rendering.value.depth = 0) {s : List Char} (hs : Stops continuesToken s) :
    readValue item? (rendering.text ++ s) = .ok (rendering.value, s) := by
  have hname : Stops isNameChar s := by
    apply hs.mono
    intro c hc
    simp [continuesToken, hc]
  have hnumberChar : Stops isNumberChar s := by
    apply hs.mono
    intro c hc
    simp [continuesToken, hc]
  cases rendering with
  | null => apply readWord_append (c := 'n') (r := ['u', 'l', 'l']) (by decide) hname rfl
  | undefined =>
    apply readWord_append (c := 'u') (r := ['n', 'd', 'e', 'f', 'i', 'n', 'e', 'd']) (by decide) hname rfl
  | boolean value =>
    cases value with
    | true => apply readWord_append (c := 't') (r := ['r', 'u', 'e']) (by decide) hname rfl
    | false => apply readWord_append (c := 'f') (r := ['a', 'l', 's', 'e']) (by decide) hname rfl
  | integer negative digits hne hall hfits =>
    clear h
    have hdigits : ∀ d ∈ digits, d.isDigit := List.all_eq_true.mp hall
    have hrow : ∀ d ∈ digits, isNumberChar d := by
      intro d hd
      simp [isNumberChar, hdigits d hd]
    cases negative with
    | true =>
      have hnumber : number? ('-' :: digits) = _ := number?_digits hne hall hfits rfl
      have hread := readNumber_append hrow hnumberChar hnumber
      simp only [text, List.cons_append]
      rw [readValue_number item? (.inl rfl)]
      exact hread
    | false =>
      obtain ⟨c, r, rfl⟩ := List.exists_cons_of_ne_nil hne
      have hc := hdigits c (List.mem_cons_self ..)
      have hnumber := number?_digits hne hall hfits (splitSign_of_isDigit hc r)
      have hread := readNumber_append (fun d hd => hrow d (List.mem_cons_of_mem c hd)) hnumberChar hnumber
      simp only [text, List.cons_append]
      rw [readValue_number item? (.inr hc)]
      exact hread
  | string quote pieces =>
    have hbody := stringBody_pieces_append pieces s []
    simp only [text, List.cons_append, List.append_assoc, List.nil_append]
    rw [readValue_quote, hbody]
    rfl
  | array items => contradiction

end SymbolSearch.Literal
