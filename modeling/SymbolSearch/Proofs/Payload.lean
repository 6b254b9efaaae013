import SymbolSearch.Payload
import SymbolSearch.Proofs.Extraction.Record
import SymbolSearch.Proofs.Literal.Reader

/-!
This module contains the proof that what a generator wrote down in a payload is extracted from it.
-/

namespace SymbolSearch

theorem Extraction.ofPayload_eq_ok {payload : String} {extraction : Extraction}
    (h : (ofPayload payload).toOption = some extraction) : ofPayload payload = .ok extraction := by
  cases hpayload : ofPayload payload with
  | error => simp [hpayload, Except.toOption] at h
  | ok found => simpa [hpayload, Except.toOption] using h

end SymbolSearch

namespace SymbolSearch.Payload

open Literal (Document Gap Gaps Rendering)
open Text (Stops)

structure Blanks where
  text : List Char
  all : text.all Text.isBlank

inductive Keyword
  | var
  | let
  | const

def Keyword.text : Keyword → List Char
  | var => ['v', 'a', 'r']
  | «let» => ['l', 'e', 't']
  | const => ['c', 'o', 'n', 's', 't']

def startsName (c : Char) : Bool :=
  c.isAlpha || c == '_' || c == '$'

def continuesName (c : Char) : Bool :=
  Text.isWordChar c || c == '$'

/--
The declaration of a variable up to its equals sign.
-/
structure Assignment where
  before : Blanks
  keyword : Keyword
  between : Blanks
  hbetween : between.text ≠ []
  first : Char
  hfirst : startsName first
  rest : List Char
  hrest : rest.all continuesName
  behind : Blanks

def Assignment.text (assignment : Assignment) : List Char :=
  assignment.before.text ++ (assignment.keyword.text ++ (assignment.between.text ++
    assignment.first :: (assignment.rest ++ (assignment.behind.text ++ ['=']))))

theorem continuesName_of_isBlank {c : Char} (h : Text.isBlank c) : continuesName c = false := by
  apply Text.forall_of_isBlank (motive := fun c => continuesName c = false) _ h
  decide +kernel

theorem not_isBlank_of_startsName {c : Char} (h : startsName c) : Text.isBlank c = false := by
  rw [Bool.eq_false_iff]
  intro hblank
  have : startsName c = false := by
    apply Text.forall_of_isBlank (motive := fun c => startsName c = false) _ hblank
    decide
  rw [h] at this
  contradiction

theorem Blanks.trimStart_append (blanks : Blanks) {s : List Char} (h : Stops Text.isBlank s) :
    Text.trimStart (blanks.text ++ s) = s :=
  Text.dropWhile_append_of_stops (List.all_eq_true.mp blanks.all) h

theorem Blanks.stops_append {p : Char → Bool} (blanks : Blanks)
    (hblank : ∀ {c}, Text.isBlank c → p c = false) {s : List Char} (h : Stops p s) :
    Stops p (blanks.text ++ s) := by
  cases hblanks : blanks.text with
  | nil => exact h
  | cons c r =>
    have hc : c ∈ blanks.text := by simp [hblanks]
    exact .cons (hblank (List.all_eq_true.mp blanks.all c hc))

theorem afterKeyword?_append (keyword : Keyword) (s : List Char) :
    afterKeyword? (keyword.text ++ s) = some s := by
  cases keyword <;> rfl

theorem afterBlanks?_append {blanks : Blanks} (hne : blanks.text ≠ []) {s : List Char}
    (h : Stops Text.isBlank s) : afterBlanks? (blanks.text ++ s) = some s := by
  have htrim := blanks.trimStart_append h
  obtain ⟨c, r, hblanks⟩ := List.exists_cons_of_ne_nil hne
  have hc : Text.isBlank c := List.all_eq_true.mp blanks.all c (by simp [hblanks])
  rw [hblanks, List.cons_append, Text.trimStart_cons_of_isBlank hc] at htrim
  simp [hblanks, afterBlanks?, hc, htrim]

theorem afterName?_cons_append {first : Char} {rest s : List Char} (hfirst : startsName first)
    (hrest : rest.all continuesName) (h : Stops continuesName s) :
    afterName? (first :: (rest ++ s)) = some s := by
  have heq : afterName? (first :: (rest ++ s)) =
      if startsName first then some ((rest ++ s).dropWhile continuesName) else none := rfl
  rw [heq, if_pos hfirst, Text.dropWhile_append_of_stops (List.all_eq_true.mp hrest) h]

theorem Keyword.stops_isBlank (keyword : Keyword) (s : List Char) :
    Stops Text.isBlank (keyword.text ++ s) := by
  cases keyword <;> exact .cons (by decide)

theorem Assignment.afterAssignment?_append (assignment : Assignment) (s : List Char) :
    afterAssignment? (assignment.text ++ s) = some s := by
  have hequals : Stops Text.isBlank ('=' :: s) := .cons (by decide)
  have hname : Stops continuesName (assignment.behind.text ++ '=' :: s) :=
    assignment.behind.stops_append continuesName_of_isBlank (.cons (by decide +kernel))
  have hfirst : Stops Text.isBlank (assignment.first :: (assignment.rest ++
      (assignment.behind.text ++ '=' :: s))) := .cons (not_isBlank_of_startsName assignment.hfirst)
  simp only [text, List.append_assoc, List.cons_append, List.nil_append]
  unfold afterAssignment?
  rw [assignment.before.trimStart_append (assignment.keyword.stops_isBlank _)]
  simp only [bind, Option.bind, afterKeyword?_append, afterBlanks?_append assignment.hbetween hfirst,
    afterName?_cons_append assignment.hfirst assignment.hrest hname,
    assignment.behind.trimStart_append hequals]

theorem exists_blanks_append_trimStart (s : List Char) :
    ∃ blanks : Blanks, s = blanks.text ++ Text.trimStart s :=
  ⟨⟨s.takeWhile Text.isBlank, List.all_takeWhile⟩, List.takeWhile_append_dropWhile.symm⟩

theorem exists_append_of_afterKeyword? {s r : List Char} (h : afterKeyword? s = some r) :
    ∃ keyword : Keyword, s = keyword.text ++ r := by
  unfold afterKeyword? at h
  split at h <;> cases h
  · exact ⟨.var, rfl⟩
  · exact ⟨.let, rfl⟩
  · exact ⟨.const, rfl⟩

theorem exists_append_of_afterBlanks? {s r : List Char} (h : afterBlanks? s = some r) :
    ∃ blanks : Blanks, blanks.text ≠ [] ∧ s = blanks.text ++ r := by
  cases s with
  | nil => contradiction
  | cons c s =>
    simp only [afterBlanks?] at h
    split at h
    · next hc =>
      cases h
      obtain ⟨blanks, hs⟩ := exists_blanks_append_trimStart s
      refine ⟨⟨c :: blanks.text, ?_⟩, List.cons_ne_nil _ _, congrArg (List.cons c) hs⟩
      rw [List.all_cons, hc, blanks.all, Bool.and_self]
    · contradiction

theorem exists_append_of_afterName? {s r : List Char} (h : afterName? s = some r) :
    ∃ first rest, startsName first ∧ rest.all continuesName ∧ s = first :: (rest ++ r) := by
  cases s with
  | nil => contradiction
  | cons c s =>
    simp only [afterName?] at h
    split at h
    · next hc =>
      cases h
      refine ⟨c, s.takeWhile continuesName, hc, List.all_takeWhile, ?_⟩
      exact congrArg (List.cons c) List.takeWhile_append_dropWhile.symm
    · contradiction

theorem exists_assignment_of_afterAssignment? {s r : List Char} (h : afterAssignment? s = some r) :
    ∃ assignment : Assignment, s = assignment.text ++ r := by
  unfold afterAssignment? at h
  simp only [bind, Option.bind_eq_some_iff] at h
  obtain ⟨behind, hkeyword, name, hbetween, equals, hname, h⟩ := h
  split at h
  · next htrim =>
    cases h
    obtain ⟨before, hs⟩ := exists_blanks_append_trimStart s
    obtain ⟨keyword, hkeyword⟩ := exists_append_of_afterKeyword? hkeyword
    obtain ⟨between, hne, rfl⟩ := exists_append_of_afterBlanks? hbetween
    obtain ⟨first, rest, hfirst, hrest, rfl⟩ := exists_append_of_afterName? hname
    obtain ⟨after, hequals⟩ := exists_blanks_append_trimStart equals
    refine ⟨⟨before, keyword, between, hne, first, hfirst, rest, hrest, after⟩, ?_⟩
    rw [hs, hkeyword, hequals, htrim]
    simp [Assignment.text]
  · contradiction

theorem afterAssignment?_eq_none_iff {s : List Char} :
    afterAssignment? s = none ↔
      ∀ (assignment : Assignment) (r : List Char), s ≠ assignment.text ++ r := by
  constructor
  · rintro h assignment r rfl
    rw [assignment.afterAssignment?_append] at h
    contradiction
  · intro h
    rw [Option.eq_none_iff_forall_ne_some]
    intro r hr
    obtain ⟨assignment, hs⟩ := exists_assignment_of_afterAssignment? hr
    exact h assignment r hs

/-- A declaration may have blanks in front of it, but no comment. -/
theorem afterAssignment?_gaps_append (gaps : Gaps) (s : List Char) :
    afterAssignment? (gaps.text ++ s) =
      if gaps.any Gap.isComment then none else afterAssignment? s := by
  induction gaps with
  | nil => rfl
  | cons gap gaps ih =>
    cases gap with
    | blank c hc =>
      have hskip (t : List Char) : afterAssignment? (c :: t) = afterAssignment? t := by
        unfold afterAssignment?
        rw [Text.trimStart_cons_of_isBlank hc]
      exact (hskip _).trans ih
    | line text _ => rfl
    | block text _ => rfl

theorem unmarked_of_stops {s : List Char} (h : Stops (· == '\uFEFF') s) : unmarked s = s := by
  unfold unmarked
  split
  · have := h _ rfl
    contradiction
  · rfl

theorem ne_mark_of_isBlank {c : Char} (h : Text.isBlank c) : (c == '\uFEFF') = false := by
  apply Text.forall_of_isBlank (motive := fun c => (c == '\uFEFF') = false) _ h
  decide

theorem unmarked_mark_append (mark : Bool) {s : List Char} (h : Stops (· == '\uFEFF') s) :
    unmarked ((if mark then ['\uFEFF'] else []) ++ s) = s := by
  cases mark with
  | true => rfl
  | false => exact unmarked_of_stops h

theorem Assignment.stops_mark (assignment : Assignment) (s : List Char) :
    Stops (· == '\uFEFF') (assignment.text ++ s) := by
  rw [text, List.append_assoc]
  apply assignment.before.stops_append ne_mark_of_isBlank
  cases assignment.keyword <;> exact .cons (by decide)

theorem stops_mark_append (assignment? : Option Assignment) (gaps : Gaps) (s : List Char) :
    Stops (· == '\uFEFF') (assignment?.elim [] Assignment.text ++ (gaps.text ++ '[' :: s)) := by
  cases assignment? with
  | none => exact gaps.stops_text_append ne_mark_of_isBlank (by decide) (.cons (by decide))
  | some assignment => exact assignment.stops_mark _

theorem Assignment.literalText_append (assignment : Assignment) (s : List Char) :
    literalText (assignment.text ++ s) = s := by
  rw [literalText, assignment.afterAssignment?_append, Option.getD_some]

theorem literalText_append (assignment? : Option Assignment) (gaps : Gaps) (s : List Char) :
    literalText (assignment?.elim [] Assignment.text ++ (gaps.text ++ '[' :: s)) =
      gaps.text ++ '[' :: s := by
  cases assignment? with
  | none =>
    have hnone : afterAssignment? (gaps.text ++ '[' :: s) = none := by
      rw [afterAssignment?_gaps_append]
      split <;> rfl
    rw [Option.elim_none, List.nil_append, literalText, hnone, Option.getD_none]
  | some assignment => exact assignment.literalText_append _

/--
A payload that a generator wrote for things in their order.
-/
structure Writing (subjects : List Subject) where
  mark : Bool
  assignment? : Option Assignment
  records : List Record
  hrecords : records.flatMap Record.subjects = subjects
  document : Document
  hdocument : document.value = .array (records.map Record.value)

namespace Writing

variable {subjects : List Subject} (writing : Writing subjects)

def text : List Char :=
  (if writing.mark then ['\uFEFF'] else []) ++
    ((writing.assignment?.elim [] Assignment.text) ++ writing.document.text)

theorem exists_document_text_eq :
    ∃ s, writing.document.text = writing.document.before.text ++ '[' :: s := by
  have hvalue := writing.hdocument
  unfold Document.text
  unfold Document.value at hvalue
  cases hroot : writing.document.root with
  | array items => exact ⟨_, rfl⟩
  | _ =>
    rw [hroot] at hvalue
    contradiction

theorem literalText_unmarked_text : literalText (unmarked writing.text) = writing.document.text := by
  obtain ⟨s, hdocument⟩ := writing.exists_document_text_eq
  rw [text, hdocument, unmarked_mark_append _ (stops_mark_append _ _ _), literalText_append]

theorem value_text : value (.ofList writing.text) = .ok (.array (writing.records.map Record.value)) := by
  have hdepth : writing.document.value.depth ≤ Literal.maxDepth := by
    have := depth_records_le writing.records
    rw [writing.hdocument, Literal.maxDepth]
    omega
  unfold value
  rw [String.toList_ofList]
  simp only [writing.literalText_unmarked_text, writing.document.readLiteral_eq_ok hdepth,
    writing.hdocument]
  rfl

/--
What a generator wrote down in a payload is extracted from it, without any warning.
-/
theorem ofPayload_text :
    Extraction.ofPayload (.ofList writing.text) =
      .ok { entries := subjects.map Subject.entry, warnings := [], records := writing.records.length } := by
  unfold Extraction.ofPayload
  rw [writing.value_text]
  simp only [bind, Except.bind, Extraction.ofValue_records, writing.hrecords]
  rfl

end Writing

end SymbolSearch.Payload
