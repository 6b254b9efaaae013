import SymbolSearch.Proofs.Extraction.Append
import SymbolSearch.Proofs.Literal.Acceptance
import SymbolSearch.Proofs.Literal.Unread
import SymbolSearch.Proofs.Payload.Generated

/-!
This module contains the proof that a payload that was cut off is never taken for a whole one: as long
as the bracket that closes the outermost array is missing, no literal is found.
-/

namespace SymbolSearch.Payload

open Literal (Gaps Value WritesItems readLiteral skipTrivia)

/--
Where in a payload the outermost array is closed: behind `inner` and in front of `behind`.
-/
structure Closing (payload : List Char) where
  mark : Bool
  assignment? : Option Assignment
  before : Gaps
  inner : List Char
  items : List Value
  behind : List Char
  hitems : WritesItems (inner ++ [']']) items
  hpayload : payload = (if mark then ['\uFEFF'] else []) ++ (assignment?.elim [] Assignment.text ++
    (before.text ++ '[' :: (inner ++ ']' :: behind)))

/--
The payload in front of the closing bracket.
-/
def Closing.front {payload : List Char} (closing : Closing payload) : List Char :=
  (if closing.mark then ['\uFEFF'] else []) ++ (closing.assignment?.elim [] Assignment.text ++
    (closing.before.text ++ '[' :: closing.inner))

theorem unmarked_append {s : List Char} (hne : s ≠ []) (t : List Char) :
    unmarked (s ++ t) = unmarked s ++ t := by
  obtain ⟨c, r, rfl⟩ := List.exists_cons_of_ne_nil hne
  by_cases hc : c = '\uFEFF'
  · subst hc
    rfl
  · have hstops {s : List Char} : Text.Stops (· == '\uFEFF') (c :: s) :=
      .cons (by simpa using hc)
    rw [List.cons_append, unmarked_of_stops hstops, unmarked_of_stops hstops, List.cons_append]

theorem exists_mark_append_unmarked (s : List Char) :
    ∃ mark : Bool, s = (if mark then ['\uFEFF'] else []) ++ unmarked s := by
  unfold unmarked
  split
  · exact ⟨true, rfl⟩
  · exact ⟨false, rfl⟩

theorem exists_assignment_append_literalText (text : List Char) :
    ∃ assignment? : Option Assignment,
      text = assignment?.elim [] Assignment.text ++ literalText text := by
  unfold literalText
  cases h : afterAssignment? text with
  | none => exact ⟨none, rfl⟩
  | some r =>
    obtain ⟨assignment, rfl⟩ := exists_assignment_of_afterAssignment? h
    exact ⟨some assignment, rfl⟩

/-- Where a text is cut off, its literal is cut off too, unless the cut lies in the declaration. -/
theorem literalText_append_cases (s t : List Char) :
    literalText (s ++ t) = literalText s ++ t ∨
      literalText s = s ∧ ∃ (assignment : Assignment) (r : List Char), s ++ t = assignment.text ++ r := by
  unfold literalText
  cases h : afterAssignment? s with
  | some r =>
    obtain ⟨assignment, rfl⟩ := exists_assignment_of_afterAssignment? h
    left
    rw [List.append_assoc, assignment.afterAssignment?_append, Option.getD_some, Option.getD_some]
  | none =>
    cases happend : afterAssignment? (s ++ t) with
    | none => exact .inl rfl
    | some r =>
      obtain ⟨assignment, heq⟩ := exists_assignment_of_afterAssignment? happend
      exact .inr ⟨rfl, assignment, r, heq⟩

theorem Blanks.skipTrivia_append (blanks : Blanks) (s : List Char) :
    skipTrivia (blanks.text ++ s) = skipTrivia s := by
  obtain ⟨text, hall⟩ := blanks
  induction text with
  | nil => rfl
  | cons c text ih =>
    rw [List.all_cons, Bool.and_eq_true] at hall
    rw [List.cons_append, Literal.skipTrivia_cons_of_isBlank hall.1]
    exact ih hall.2

theorem Keyword.text_eq_cons (keyword : Keyword) :
    ∃ c r, keyword.text = c :: r ∧ c ≠ '[' ∧ Literal.startsScalar c = false ∧
      Literal.startsGap c = false := by
  cases keyword <;> exact ⟨_, _, rfl, by decide, by decide, by decide⟩

theorem readLiteral_ne_ok_of_assignment {s t r : List Char} {assignment : Assignment}
    (h : s ++ t = assignment.text ++ r) (value : Value) : readLiteral s ≠ .ok value := by
  intro hread
  obtain ⟨-, before, text, ending, rfl, hwrites⟩ := Literal.exists_writes_of_readLiteral hread
  obtain ⟨c, name, hkeyword, hbracket, hscalar, hgap⟩ := assignment.keyword.text_eq_cons
  -- The first character behind the gaps starts the value and the declaration.
  have hvalue := hwrites.skipTrivia_append before (ending.text ++ t)
  have hdeclaration (s : List Char) :
      skipTrivia (assignment.before.text ++ c :: s) = .ok (c :: s) := by
    rw [assignment.before.skipTrivia_append, Literal.skipTrivia_of_stops (.cons hgap)]
  rw [List.append_assoc, List.append_assoc, Assignment.text, hkeyword] at h
  simp only [List.append_assoc, List.cons_append] at h
  rw [h, hdeclaration] at hvalue
  obtain ⟨d, rest, rfl, hd⟩ := hwrites.text_eq_cons
  obtain ⟨rfl, -⟩ := List.cons.inj (Except.ok.inj hvalue)
  rcases hd with hd | ⟨hd, -⟩
  · rw [hd] at hscalar
    contradiction
  · contradiction

namespace Closing

variable {payload : List Char} (closing : Closing payload)

theorem payload_eq : payload = closing.front ++ ']' :: closing.behind := by
  have hpayload := closing.hpayload
  simpa [front] using hpayload

theorem literalText_unmarked :
    literalText (unmarked payload) =
      closing.before.text ++ '[' :: (closing.inner ++ ']' :: closing.behind) := by
  have hstops := stops_mark_append closing.assignment? closing.before
    (closing.inner ++ ']' :: closing.behind)
  have hpayload := congrArg (literalText ∘ unmarked) closing.hpayload
  rwa [Function.comp_apply, Function.comp_apply, unmarked_mark_append _ hstops,
    literalText_append] at hpayload

/-- A value read from the literal in front of a cut would be the whole array, closing bracket included. -/
theorem readLiteral_ne_ok {s t : List Char} (h : literalText (unmarked payload) = s ++ t)
    (ht : closing.behind.length < t.length) (value : Value) : readLiteral s ≠ .ok value := by
  intro hread
  obtain ⟨-, before, text, ending, rfl, hwrites⟩ := Literal.exists_writes_of_readLiteral hread
  have hvalue := hwrites.skipTrivia_append before (ending.text ++ t)
  have harray := closing.before.skipTrivia_text_append_of_stops
    (s := '[' :: (closing.inner ++ ']' :: closing.behind)) (.cons (by decide))
  rw [← closing.literalText_unmarked, h, List.append_assoc, List.append_assoc, hvalue] at harray
  obtain ⟨c, r, rfl, hc⟩ := hwrites.text_eq_cons
  obtain ⟨rfl, hr⟩ := List.cons.inj (Except.ok.inj harray)
  rcases hc with hscalar | ⟨-, items, hitems⟩
  · contradiction
  · have hbehind : ending.text ++ t = closing.behind := by
      apply hitems.append_inj closing.hitems
      rw [List.append_assoc, List.singleton_append]
      exact hr
    rw [← hbehind, List.length_append] at ht
    omega

theorem readLiteral_ne_ok_of_prefix {cut : List Char} (h : cut <+: closing.front) (value : Value) :
    readLiteral (literalText (unmarked cut)) ≠ .ok value := by
  by_cases hne : cut = []
  · subst hne
    intro hread
    obtain ⟨-, before, text, ending, hnil, hwrites⟩ := Literal.exists_writes_of_readLiteral hread
    exact hwrites.append_ne_nil _ (List.append_eq_nil_iff.mp hnil.symm).2
  · obtain ⟨missing, hfront⟩ := h
    have hpayload : unmarked payload = unmarked cut ++ (missing ++ ']' :: closing.behind) := by
      rw [← unmarked_append hne, ← List.append_assoc, hfront, ← closing.payload_eq]
    rcases literalText_append_cases (unmarked cut) (missing ++ ']' :: closing.behind) with
      hcut | ⟨hcut, assignment, r, hassignment⟩
    · rw [← hpayload] at hcut
      apply closing.readLiteral_ne_ok hcut
      rw [List.length_append, List.length_cons]
      omega
    · rw [hcut]
      exact readLiteral_ne_ok_of_assignment hassignment value

end Closing

theorem value_eq_ok_iff {payload : String} {value : Value} :
    Payload.value payload = .ok value ↔
      readLiteral (literalText (unmarked payload.toList)) = .ok value :=
  mapError_eq_ok_iff

theorem exists_closing_of_ofPayload {payload : String} {extraction : Extraction}
    (h : Extraction.ofPayload payload = .ok extraction) : Nonempty (Closing payload.toList) := by
  obtain ⟨items, hvalue, -⟩ := Extraction.ofPayload_eq_ok_iff.mp h
  obtain ⟨-, before, text, ending, hliteral, hwrites⟩ :=
    Literal.exists_writes_of_readLiteral (value_eq_ok_iff.mp hvalue)
  obtain ⟨r, rfl, hitems⟩ := hwrites.exists_writesItems
  obtain ⟨inner, rfl⟩ := hitems.exists_append
  obtain ⟨mark, hmark⟩ := exists_mark_append_unmarked payload.toList
  obtain ⟨assignment?, htext⟩ := exists_assignment_append_literalText (unmarked payload.toList)
  refine ⟨⟨mark, assignment?, before, inner, items, ending.text, hitems, ?_⟩⟩
  rw [hliteral] at htext
  rw [htext] at hmark
  simpa using hmark

theorem exists_fault_of_readLiteral_ne_ok {payload : String}
    (h : ∀ value, readLiteral (literalText (unmarked payload.toList)) ≠ .ok value) :
    ∃ read cause, read <+: unmarked payload.toList ∧
      Extraction.ofPayload payload = .error (.fault (Text.byteLength read) cause) := by
  cases hread : readLiteral (literalText (unmarked payload.toList)) with
  | ok value => exact absurd hread (h value)
  | error fault =>
    have hliteral : literalText (unmarked payload.toList) <:+ unmarked payload.toList := by
      obtain ⟨assignment?, htext⟩ := exists_assignment_append_literalText (unmarked payload.toList)
      exact ⟨_, htext.symm⟩
    obtain ⟨read, htext⟩ := (Literal.rest_suffix_of_readLiteral_eq_error hread).trans hliteral
    have hoffset : fault.offset (unmarked payload.toList) = Text.byteLength read := by
      rw [Literal.Fault.offset, ← htext, Text.byteLength_append, Nat.add_sub_cancel]
    refine ⟨read, fault.cause, ⟨fault.rest, htext⟩, ?_⟩
    rw [← hoffset]
    unfold Extraction.ofPayload Payload.value
    simp only [hread]
    rfl

/--
A payload that was cut off in front of the bracket that closes the outermost array is always refused for
a fault, and the place of the fault lies in what is left of it.
-/
theorem ofPayload_truncated {payload : String} {extraction : Extraction}
    (h : Extraction.ofPayload payload = .ok extraction) :
    Nonempty (Closing payload.toList) ∧
      ∀ (closing : Closing payload.toList) (cut : String), cut.toList <+: closing.front →
        ∃ offset cause, Extraction.ofPayload cut = .error (.fault offset cause) ∧
          offset ≤ Text.byteLength (unmarked cut.toList) ∧
          ∃ read, read <+: unmarked cut.toList ∧ offset = Text.byteLength read := by
  refine ⟨exists_closing_of_ofPayload h, ?_⟩
  intro closing cut hcut
  obtain ⟨read, cause, hread, hfault⟩ :=
    exists_fault_of_readLiteral_ne_ok (closing.readLiteral_ne_ok_of_prefix hcut)
  refine ⟨Text.byteLength read, cause, hfault, ?_, read, hread, rfl⟩
  obtain ⟨rest, htext⟩ := hread
  rw [← htext, Text.byteLength_append]
  exact Nat.le_add_right _ _

def Closing.commented : Closing "\uFEFFlet a=[/*]*/['',['f',['u']]]];".toList where
  mark := true
  assignment? := some
    { Assignment.plain with keyword := .let, first := 'a', hfirst := by decide, rest := [], hrest := rfl }
  before := []
  inner := "/*]*/['',['f',['u']]]".toList
  items := [.array [.string "", .array [.string "f", .array [.string "u"]]]]
  behind := [';']
  hitems := by
    have hlabel : Literal.Body .single ['f', '\''] ['f'] :=
      .raw (by decide) (by decide) (by decide) .close
    have hurl : Literal.Body .single ['u', '\''] ['u'] :=
      .raw (by decide) (by decide) (by decide) .close
    have hanchor : WritesItems "'u']".toList [.string "u"] :=
      @WritesItems.last "'u'".toList _ [] [] (.string .single hurl)
    have hanchors : WritesItems "['u']]".toList [.array [.string "u"]] :=
      @WritesItems.last "['u']".toList _ [] [] (.array hanchor)
    have hsymbol : WritesItems "'f',['u']]".toList [.string "f", .array [.string "u"]] :=
      @WritesItems.more "'f'".toList _ _ _ [] [] (.string .single hlabel) hanchors
    have hfields : WritesItems "['f',['u']]]".toList [.array [.string "f", .array [.string "u"]]] :=
      @WritesItems.last "['f',['u']]".toList _ [] [] (.array hsymbol)
    have hrecord : WritesItems "'',['f',['u']]]".toList
        [.string "", .array [.string "f", .array [.string "u"]]] :=
      @WritesItems.more "''".toList _ _ _ [] [] (.string .single .close) hfields
    exact @WritesItems.last "['',['f',['u']]]".toList _ [.block [']'] (by decide)] [] (.array hrecord)
  hpayload := by decide

theorem ofPayload_truncated_commented :
    Extraction.ofPayload "\uFEFFlet a=[/*]*/['',['f',['u']]]];" =
        .ok { entries := [⟨"f", "", "u", none⟩], warnings := [], records := 1 } ∧
      ∀ cut : String, cut.toList <+: "\uFEFFlet a=[/*]*/['',['f',['u']]]".toList →
        ∃ offset cause, Extraction.ofPayload cut = .error (.fault offset cause) ∧
          offset ≤ Text.byteLength (unmarked cut.toList) := by
  have haccepted : Extraction.ofPayload "\uFEFFlet a=[/*]*/['',['f',['u']]]];" =
      .ok { entries := [⟨"f", "", "u", none⟩], warnings := [], records := 1 } :=
    Extraction.ofPayload_eq_ok (by decide +kernel)
  refine ⟨haccepted, ?_⟩
  intro cut hcut
  obtain ⟨offset, cause, hfault, hle, -⟩ :=
    (ofPayload_truncated haccepted).2 Closing.commented cut hcut
  exact ⟨offset, cause, hfault, hle⟩

end SymbolSearch.Payload
