import SymbolSearch.Proofs.Payload.Declaration

/-!
This module contains what blanks and comments in front of a payload do. In front of a literal all of
them are skipped. In front of a declaration this only holds of blanks: behind a comment the declaration
is taken for the literal and refused.
-/

namespace SymbolSearch

namespace Literal

open Text (Stops)

theorem readLiteral_gaps_append (gaps : Gaps) (s : List Char) :
    readLiteral (gaps.text ++ s) = readLiteral s := by
  unfold readLiteral
  rw [gaps.skipTrivia_text_append]

theorem isNameChar_of_isBlank {c : Char} (h : Text.isBlank c) : isNameChar c = false := by
  apply Text.forall_of_isBlank (motive := fun c => isNameChar c = false) _ h
  decide

theorem readWord_append_of_none {c : Char} {r s : List Char} (hr : r.all isNameChar)
    (hs : Stops isNameChar s) (h : wordValue? (.ofList (c :: r)) = none) :
    readWord c (r ++ s) = .error ⟨.word (.ofList (c :: r)), c :: (r ++ s)⟩ := by
  unfold readWord
  rw [Text.takeWhile_append_of_stops (List.all_eq_true.mp hr) hs]
  dsimp only
  rw [h]

end Literal

namespace Payload

open Literal (Gap Gaps readLiteral readValue)
open Text (Stops)

theorem Blanks.stops_append_of_ne_nil {p : Char → Bool} (blanks : Blanks)
    (hblank : ∀ {c}, Text.isBlank c → p c = false) (hne : blanks.text ≠ []) (s : List Char) :
    Stops p (blanks.text ++ s) := by
  obtain ⟨c, r, hblanks⟩ := List.exists_cons_of_ne_nil hne
  have hc : c ∈ blanks.text := by simp [hblanks]
  rw [hblanks]
  exact .cons (hblank (List.all_eq_true.mp blanks.all c hc))

theorem Keyword.readValue_append (keyword : Keyword) {s : List Char}
    (hs : Stops Literal.isNameChar s) (item? : Option (Literal.Reader Literal.Value)) :
    readValue item? (keyword.text ++ s) =
      .error ⟨.word (.ofList keyword.text), keyword.text ++ s⟩ := by
  cases keyword with
  | var =>
    exact Literal.readWord_append_of_none (c := 'v') (r := ['a', 'r']) (by decide) hs (by decide)
  | «let» =>
    exact Literal.readWord_append_of_none (c := 'l') (r := ['e', 't']) (by decide) hs (by decide)
  | const =>
    exact Literal.readWord_append_of_none (c := 'c') (r := ['o', 'n', 's', 't']) (by decide) hs
      (by decide)

/-- Where a literal is expected, a declaration is refused at its keyword. -/
theorem Assignment.exists_fault (assignment : Assignment) (s : List Char) :
    ∃ rest, readLiteral (assignment.text ++ s) =
        .error ⟨.word (.ofList assignment.keyword.text), rest⟩ ∧
      assignment.text ++ s = assignment.before.text ++ rest := by
  let behind := assignment.first :: (assignment.rest ++ (assignment.behind.text ++ ['='])) ++ s
  have htext : assignment.text ++ s = assignment.before.text ++
      (assignment.keyword.text ++ (assignment.between.text ++ behind)) := by
    simp [text, behind]
  refine ⟨_, ?_, htext⟩
  have hname : Stops Literal.isNameChar (assignment.between.text ++ behind) :=
    assignment.between.stops_append_of_ne_nil Literal.isNameChar_of_isBlank assignment.hbetween _
  have hkeyword : Stops Literal.startsGap (assignment.keyword.text ++
      (assignment.between.text ++ behind)) := by
    cases assignment.keyword <;> exact .cons (by decide)
  obtain ⟨item?, hread⟩ := Literal.valueReader_read Literal.maxDepth
  unfold readLiteral
  rw [htext, assignment.before.skipTrivia_append, Literal.skipTrivia_of_stops hkeyword, hread]
  simp only [bind, Except.bind, assignment.keyword.readValue_append hname item?]

theorem readLiteral_literalText_gaps_append {gaps : Gaps} {s : List Char}
    (h : afterAssignment? (gaps.text ++ s) = afterAssignment? s) :
    readLiteral (literalText (gaps.text ++ s)) = readLiteral (literalText s) := by
  unfold literalText
  rw [h]
  cases afterAssignment? s with
  | none => exact Literal.readLiteral_gaps_append gaps s
  | some r => rfl

theorem unmarked_gaps_append {payload : String} (hmark : Stops (· == '\uFEFF') payload.toList)
    (gaps : Gaps) :
    unmarked (String.ofList gaps.text ++ payload).toList = gaps.text ++ payload.toList := by
  rw [String.toList_append, String.toList_ofList]
  exact unmarked_of_stops (gaps.stops_text_append ne_mark_of_isBlank (by decide) hmark)

/--
In front of a payload from which something is extracted there may be blanks and, unless it starts with a
declaration, comments. Behind a comment a declaration is refused for its keyword.
-/
theorem ofPayload_gaps_append {payload : String} {extraction : Extraction}
    (h : Extraction.ofPayload payload = .ok extraction) (hmark : payload.toList.head? ≠ some '\uFEFF')
    (gaps : Gaps) :
    ((gaps.any Gap.isComment = false ∨
        ∀ (assignment : Assignment) (r : List Char), payload.toList ≠ assignment.text ++ r) →
      Extraction.ofPayload (.ofList gaps.text ++ payload) = .ok extraction) ∧
    (gaps.any Gap.isComment → ∀ (assignment : Assignment) (r : List Char),
      payload.toList = assignment.text ++ r →
      Extraction.ofPayload (.ofList gaps.text ++ payload) =
        .error (.fault (Text.byteLength gaps.text + Text.byteLength assignment.before.text)
          (.word (.ofList assignment.keyword.text)))) := by
  have hstops : Stops (· == '\uFEFF') payload.toList := Text.stops_beq_iff.mpr hmark
  have hunmarked := unmarked_gaps_append hstops gaps
  have hassignment := afterAssignment?_gaps_append gaps payload.toList
  constructor
  · intro hplain
    have hsame : afterAssignment? (gaps.text ++ payload.toList) = afterAssignment? payload.toList := by
      rcases hplain with hblanks | hnone
      · rw [hassignment, hblanks]
        rfl
      · rw [hassignment, afterAssignment?_eq_none_iff.mpr hnone, ite_self]
    obtain ⟨items, hvalue, hitems⟩ := Extraction.ofPayload_eq_ok_iff.mp h
    refine Extraction.ofPayload_eq_ok_iff.mpr ⟨items, ?_, hitems⟩
    rw [value_eq_ok_iff] at *
    rw [hunmarked, readLiteral_literalText_gaps_append hsame]
    rwa [unmarked_of_stops hstops] at hvalue
  · intro hcomment assignment r hpayload
    obtain ⟨rest, hread, htext⟩ := assignment.exists_fault r
    rw [← hpayload] at hread htext
    have hliteral : literalText (gaps.text ++ payload.toList) = gaps.text ++ payload.toList := by
      rw [literalText, hassignment, if_pos hcomment, Option.getD_none]
    have hoffset : Literal.Fault.offset ⟨.word (.ofList assignment.keyword.text), rest⟩
        (gaps.text ++ payload.toList) =
          Text.byteLength gaps.text + Text.byteLength assignment.before.text := by
      rw [Literal.Fault.offset, htext, ← List.append_assoc, Text.byteLength_append,
        Text.byteLength_append, Nat.add_sub_cancel]
    unfold Extraction.ofPayload
    rw [value_of_unmarked hunmarked, hliteral, Literal.readLiteral_gaps_append, hread]
    simp only [bind, Except.bind, Except.mapError, hoffset]

def banner : Gaps :=
  [.block [' ', 'ö', ' '] (by decide), .blank '\n' (by decide)]

def Assignment.indented : Assignment :=
  { Assignment.plain with before := Assignment.plain.between, keyword := .let }

theorem ofPayload_behind_banner :
    Extraction.ofPayload "/* ö */\n[['a',['a',['u']]]]" =
        .ok { entries := [⟨"a", "", "u", none⟩], warnings := [], records := 1 } ∧
      Extraction.ofPayload "/* ö */\n let searchData=[]" = .error (.fault 10 (.word "let")) := by
  have hliteral : Extraction.ofPayload "[['a',['a',['u']]]]" =
      .ok { entries := [⟨"a", "", "u", none⟩], warnings := [], records := 1 } := by
    decide +kernel
  have hdeclared : Extraction.ofPayload " let searchData=[]" =
      .ok { entries := [], warnings := [], records := 0 } := by
    decide +kernel
  have hnone : afterAssignment? "[['a',['a',['u']]]]".toList = none := by decide
  constructor
  · exact (ofPayload_gaps_append hliteral (by decide) banner).1
      (.inr (afterAssignment?_eq_none_iff.mp hnone))
  · exact (ofPayload_gaps_append hdeclared (by decide) banner).2 rfl Assignment.indented ['[', ']'] rfl

/--
A comment is skipped in front of a literal, but not in front of the declaration of the same literal.
-/
theorem ofPayload_comment_declaration :
    Extraction.ofPayload "var x=[['a',['a',['u']]]]" =
        .ok { entries := [⟨"a", "", "u", none⟩], warnings := [], records := 1 } ∧
      Extraction.ofPayload
          (.ofList (Gaps.text [.line [' ', 'a', 'l', 'l'] (by decide)]) ++ "var x=[['a',['a',['u']]]]") ≠
        .ok { entries := [⟨"a", "", "u", none⟩], warnings := [], records := 1 } := by
  decide +kernel

end Payload

end SymbolSearch
