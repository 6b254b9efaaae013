import SymbolSearch.Proofs.Json.Grammar
import SymbolSearch.Proofs.Literal.Number
import SymbolSearch.Proofs.Literal.Quoted

/-!
This module contains a reader of documents in the JSON format and the proof that it reads every document
as what it says. So no document says two things.
-/

namespace SymbolSearch.Json

open Literal (exponent? isNumberChar signed splitPoint splitSign stringBody)
open Text (Stops)

abbrev Parser (α : Type) :=
  List Char → Option (α × List Char)

def number? (text : List Char) : Option ℚ :=
  let (negative, s) := splitSign text
  let whole := s.takeWhile Char.isDigit
  let (fraction?, tail) := splitPoint (s.dropWhile Char.isDigit)
  let fraction := fraction?.getD []
  (exponent? tail).map fun shift : Int =>
    signed negative (Text.numeral 10 (whole ++ fraction)) * 10 ^ (shift - fraction.length)

/--
Read a string behind its opening quote.
-/
def readString : Parser String := fun s =>
  match stringBody '"' s [] with
  | .ok (chars, r) => some (.ofList chars, r)
  | .error _ => none

/--
Read a row of at most `fuel` parts behind the character that opens it.
-/
def readRow {α : Type} (part : Parser α) (close : Char) : Nat → Parser (List α)
  | 0, _ => none
  | fuel + 1, s =>
    match s.dropWhile isSpace with
    | [] => none
    | c :: r =>
      if c = close then
        some ([], r)
      else
        match part (c :: r) with
        | none => none
        | some (first, behind) =>
          match behind.dropWhile isSpace with
          | [] => none
          | d :: rest =>
            if d = close then
              some ([first], rest)
            else
              (readRow part close fuel rest).map fun (parts, rest) => (first :: parts, rest)

def readField (value : Parser Tree) : Parser (String × Tree) := fun s =>
  match readString (s.drop 1) with
  | none => none
  | some (name, r) =>
    (value (((r.dropWhile isSpace).drop 1).dropWhile isSpace)).map fun (tree, rest) =>
      ((name, tree), rest)

/--
Read a value that its first character announces. Arrays and objects lie at most `fuel` deep inside each
other and have at most `fuel` parts.
-/
def readValue : Nat → Parser Tree
  | 0, _ => none
  | fuel + 1, s =>
    match s with
    | 'n' :: r => some (.null, r.drop 3)
    | 't' :: r => some (.boolean true, r.drop 3)
    | 'f' :: r => some (.boolean false, r.drop 4)
    | '"' :: r => (readString r).map fun (text, rest) => (.string text, rest)
    | '[' :: r =>
      (readRow (readValue fuel) ']' fuel r).map fun (items, rest) => (.array items, rest)
    | '\x7b' :: r =>
      (readRow (readField (readValue fuel)) '\x7d' fuel r).map fun (fields, rest) =>
        (.object fields, rest)
    | _ =>
      (number? (s.takeWhile isNumberChar)).map fun n => (.number n, s.dropWhile isNumberChar)

/--
Read a document. It is checked no further than it takes to tell what it says.
-/
def read? (text : String) : Option Tree :=
  (readValue text.length (text.toList.dropWhile isSpace)).map Prod.fst

theorem Numeral.number?_text (numeral : Numeral) : number? numeral.text = some numeral.value := by
  have hstops := numeral.stops_afterWhole
  have hwhole := List.all_eq_true.mp numeral.hwhole
  unfold number?
  rw [numeral.splitSign_text]
  dsimp only
  rw [Text.takeWhile_append_of_stops hwhole hstops, Text.dropWhile_append_of_stops hwhole hstops,
    numeral.splitPoint_afterWhole]
  dsimp only
  rw [Literal.exponent?_eq_some_iff.mpr ⟨numeral.exponent?, rfl, rfl⟩]
  rfl

theorem exists_spelling_of_spells {c : Char} {text : List Char} (h : Spells c text) :
    ∃ spelling : Literal.Spelling .double c, spelling.text = text := by
  cases h with
  | raw hcontrol hquote hbackslash =>
    have hnewline : c ≠ '\n' := by
      rintro rfl
      contradiction
    exact ⟨.raw hquote hbackslash hnewline, rfl⟩
  | @letter name h =>
    -- Quotes, backslashes and slashes have no letter; they stand for themselves behind a backslash.
    have hletter : ∀ escape ∈ letterEscapes, escape ∈ Literal.letterEscapes ∨
        escape.1 = escape.2 ∧ escape.2 ∉ Literal.reserved := by decide
    rcases hletter _ h with hletter | ⟨heq, hitself⟩
    · exact ⟨.letter name hletter, rfl⟩
    · have heq : name = c := heq
      subst heq
      exact ⟨.itself hitself, rfl⟩
  | fourDigits hex h => exact ⟨.fourDigits hex h, rfl⟩
  | pair hhigh hlow hvalue first hfirst second hsecond =>
    exact ⟨.pair _ _ hhigh hlow hvalue first hfirst second hsecond, rfl⟩

theorem Body.stringBody_append {chars text : List Char} (h : Body chars text) (r read : List Char) :
    stringBody '"' (text ++ r) read = .ok (read.reverse ++ chars, r) := by
  induction h generalizing read with
  | close =>
    have hclose : stringBody Literal.Quote.double.char (Literal.Quote.double.char :: r) read =
        .ok (read.reverse, r) := Literal.stringBody_quote r read
    rw [List.append_nil]
    exact hclose
  | @char c chars text rest h hrest ih =>
    obtain ⟨spelling, rfl⟩ := exists_spelling_of_spells h
    rw [List.append_assoc]
    apply (spelling.stringBody_text_append (rest ++ r) read).trans
    apply (ih (c :: read)).trans
    rw [List.reverse_cons, List.append_assoc, List.singleton_append]

theorem Body.readString_append {chars text : List Char} (h : Body chars text) (r : List Char) :
    readString (text ++ r) = some (.ofList chars, r) := by
  unfold readString
  rw [h.stringBody_append]
  rfl

theorem dropWhile_space_append {space s : List Char} (hspace : space.all isSpace)
    (hs : Stops isSpace s) : (space ++ s).dropWhile isSpace = s := by
  apply Text.dropWhile_append_of_stops (List.all_eq_true.mp hspace) hs

theorem isNumberChar_of_isSpace {c : Char} (h : isSpace c) : isNumberChar c = false := by
  simp only [isSpace, Bool.or_eq_true, beq_iff_eq] at h
  rcases h with ((rfl | rfl) | rfl) | rfl <;> rfl

theorem stops_isNumberChar_append {space s : List Char} (hspace : space.all isSpace)
    (hs : Stops isNumberChar s) : Stops isNumberChar (space ++ s) := by
  cases space with
  | nil => exact hs
  | cons c space =>
    rw [List.all_cons, Bool.and_eq_true] at hspace
    exact .cons (isNumberChar_of_isSpace hspace.1)

/--
Whether a parser reads everything of at most a given length that a relation says is written. What stands
behind it must not go on as a number.
-/
def ReadsUpTo {α : Type} (length : Nat) (writes : α → List Char → Prop) (parser : Parser α) : Prop :=
  ∀ a text, writes a text → text.length ≤ length → ∀ r, Stops isNumberChar r →
    parser (text ++ r) = some (a, r)

section Row

variable {α : Type} {writes : α → List Char → Prop} {close : Char} {part : Parser α}

/--
Whether a character can close a row of parts: nothing else in the row starts with it.
-/
structure Closes (writes : α → List Char → Prop) (close : Char) : Prop where
  hspace : isSpace close = false
  hcomma : ',' ≠ close
  hnumber : isNumberChar close = false
  hpart : ∀ {part text}, writes part text → ∃ c r, text = c :: r ∧ isSpace c = false ∧ c ≠ close

theorem readRow_part (hclose : Closes writes close) {first : α} {before s t rest : List Char} {c : Char}
    (hbefore : before.all isSpace) (hs : writes first s) (hread : part (s ++ t) = some (first, t))
    (ht : t.dropWhile isSpace = c :: rest) (fuel : Nat) :
    readRow part close (fuel + 1) (before ++ (s ++ t)) =
      if c = close then some ([first], rest)
      else (readRow part close fuel rest).map fun (parts, rest) => (first :: parts, rest) := by
  obtain ⟨d, s, rfl, hd, hne⟩ := hclose.hpart hs
  rw [List.cons_append] at hread ⊢
  rw [readRow, dropWhile_space_append hbefore (.cons hd)]
  dsimp only
  rw [if_neg hne, hread]
  dsimp only
  rw [ht]

theorem Row.readRow_append (hclose : Closes writes close) {length : Nat}
    (hpart : ReadsUpTo length writes part) {parts : List α} {text : List Char}
    (h : Row writes close parts text) (hlength : text.length ≤ length) {fuel : Nat}
    (hfuel : text.length ≤ fuel) (r : List Char) :
    readRow part close fuel (text ++ r) = some (parts, r) := by
  induction h generalizing fuel with
  | @empty space hspace =>
    rw [List.length_append, List.length_singleton] at hfuel
    obtain ⟨fuel, rfl⟩ := Nat.exists_eq_add_of_le' (Nat.le_trans (Nat.le_add_left 1 _) hfuel)
    rw [List.append_assoc, List.singleton_append, readRow,
      dropWhile_space_append hspace (.cons hclose.hspace)]
    exact if_pos rfl
  | @last first before s behind hbefore h hbehind =>
    simp only [List.length_append, List.length_singleton] at hlength hfuel
    obtain ⟨fuel, rfl⟩ : ∃ n, fuel = n + 1 := ⟨fuel - 1, by omega⟩
    have hstops := stops_isNumberChar_append hbehind (.cons (s := r) hclose.hnumber)
    have hread := hpart first s h (by omega) _ hstops
    simp only [List.append_assoc, List.singleton_append]
    rw [readRow_part hclose hbefore h hread (dropWhile_space_append hbehind (.cons hclose.hspace)),
      if_pos rfl]
  | @more first next parts before s behind rest hbefore h hbehind hrest ih =>
    simp only [List.length_append, List.length_cons] at hlength hfuel
    obtain ⟨fuel, rfl⟩ : ∃ n, fuel = n + 1 := ⟨fuel - 1, by omega⟩
    have hstops := stops_isNumberChar_append hbehind (.cons (c := ',') (s := rest ++ r) (by decide))
    have hread := hpart first s h (by omega) _ hstops
    have hrest : readRow part close fuel (rest ++ r) = some (next :: parts, r) :=
      ih (by omega) (by omega)
    simp only [List.append_assoc, List.cons_append]
    rw [readRow_part hclose hbefore h hread (dropWhile_space_append hbehind (.cons (by decide))),
      if_neg hclose.hcomma, hrest]
    rfl

end Row

theorem Numeral.exists_isNumberChar (numeral : Numeral) :
    ∃ c r, numeral.text = c :: r ∧ isNumberChar c := by
  obtain ⟨c, r, htext, -⟩ := numeral.text_eq_cons
  have hall := numeral.all_isNumberChar
  rw [htext, List.all_cons, Bool.and_eq_true] at hall
  exact ⟨c, r, htext, hall.1⟩

theorem Writes.text_eq_cons {tree : Tree} {text : List Char} (h : Writes tree text) :
    ∃ c r, text = c :: r ∧ isSpace c = false ∧ c ≠ ']' := by
  cases h with
  | null => exact ⟨'n', _, rfl, by decide, by decide⟩
  | yes => exact ⟨'t', _, rfl, by decide, by decide⟩
  | no => exact ⟨'f', _, rfl, by decide, by decide⟩
  | number numeral =>
    obtain ⟨c, r, htext, hc⟩ := numeral.exists_isNumberChar
    refine ⟨c, r, htext, ?_, ?_⟩
    · rw [Bool.eq_false_iff]
      intro hspace
      rw [isNumberChar_of_isSpace hspace] at hc
      contradiction
    · rintro rfl
      contradiction
  | string => exact ⟨'"', _, rfl, by decide, by decide⟩
  | array => exact ⟨'[', _, rfl, by decide, by decide⟩
  | object => exact ⟨'\x7b', _, rfl, by decide, by decide⟩

theorem Writes.stops_isSpace_append {tree : Tree} {text : List Char} (h : Writes tree text)
    (r : List Char) : Stops isSpace (text ++ r) := by
  obtain ⟨c, s, rfl, hc, -⟩ := h.text_eq_cons
  exact .cons hc

theorem closes_bracket : Closes Writes ']' where
  hspace := by decide
  hcomma := by decide
  hnumber := by decide
  hpart := Writes.text_eq_cons

theorem closes_brace : Closes WritesField '\x7d' where
  hspace := by decide
  hcomma := by decide
  hnumber := by decide
  hpart := by
    rintro field text ⟨⟩
    exact ⟨'"', _, rfl, by decide, by decide⟩

theorem readsUpTo_readField {length : Nat} {value : Parser Tree} (hvalue : ReadsUpTo length Writes value) :
    ReadsUpTo length WritesField (readField value) := by
  intro field text h hlength r hr
  cases h with
  | @colon chars name before behind text tree hname hbefore hbehind h =>
    simp only [List.length_cons, List.length_append] at hlength
    have hread := hvalue tree text h (by omega) r hr
    simp only [List.cons_append, List.append_assoc]
    unfold readField
    rw [List.drop_one, List.tail_cons, hname.readString_append]
    dsimp only
    rw [dropWhile_space_append hbefore (.cons (by decide)), List.drop_one, List.tail_cons,
      dropWhile_space_append hbehind (h.stops_isSpace_append r), hread]
    rfl

theorem readValue_number {fuel : Nat} {s : List Char} (h : isNumberChar (s.headD 'n')) :
    readValue (fuel + 1) s =
      (number? (s.takeWhile isNumberChar)).map fun n => (.number n, s.dropWhile isNumberChar) := by
  rw [readValue]
  all_goals
    rintro r rfl
    contradiction

theorem readsUpTo_readValue (fuel : Nat) : ReadsUpTo fuel Writes (readValue fuel) := by
  intro tree text h hlength r hr
  induction fuel generalizing tree text r with
  | zero =>
    obtain ⟨c, s, rfl, -⟩ := h.text_eq_cons
    contradiction
  | succ fuel ih =>
    cases h with
    | null => rfl
    | yes => rfl
    | no => rfl
    | number numeral =>
      have hall := List.all_eq_true.mp numeral.all_isNumberChar
      obtain ⟨c, s, htext, hc⟩ := numeral.exists_isNumberChar
      rw [readValue_number (by rw [htext]; exact hc), Text.takeWhile_append_of_stops hall hr,
        Text.dropWhile_append_of_stops hall hr, numeral.number?_text]
      rfl
    | string h =>
      rw [List.cons_append, readValue, h.readString_append]
      rfl
    | array h =>
      have hfuel := Nat.le_of_succ_le_succ hlength
      rw [List.cons_append, readValue, h.readRow_append closes_bracket ih hfuel hfuel]
      rfl
    | object h =>
      have hfuel := Nat.le_of_succ_le_succ hlength
      rw [List.cons_append, readValue,
        h.readRow_append closes_brace (readsUpTo_readField ih) hfuel hfuel]
      rfl

theorem reads_read? (text : String) : Reads read? text := by
  rintro tree ⟨before, part, behind, hbefore, hbehind, h, htext⟩
  have hnumber : Stops isNumberChar behind := by
    have hnumber := stops_isNumberChar_append hbehind .nil
    rw [List.append_nil] at hnumber
    exact hnumber
  have hfuel : part.length ≤ text.length := by
    rw [← String.length_toList, htext]
    simp only [List.length_append]
    omega
  rw [read?, htext, dropWhile_space_append hbefore (h.stops_isSpace_append behind),
    readsUpTo_readValue text.length tree part h hfuel behind hnumber]
  rfl

/-- No text is a document that says two things. -/
theorem Document.unique {text : String} {tree other : Tree} (h : Document text tree)
    (hother : Document text other) : tree = other := by
  have hread := reads_read? text tree h
  rw [reads_read? text other hother] at hread
  exact (Option.some.inj hread).symm

end SymbolSearch.Json
