import SymbolSearch.Text.Numeral
import SymbolSearch.Toml.Layout
import SymbolSearch.Toml.Value

/-!
This module contains quoted strings. There are four forms: in double or in single quotes, within one
line or, in three quotes each, over several lines. Only double quotes have escapes between them.
-/

namespace SymbolSearch.Toml

/--
Read a character number of exactly `count` hexadecimal digits.
-/
def hexScalar (count : Nat) (s : List Char) : Step Char :=
  let digits := s.take count
  if digits.length = count ∧ digits.all (Text.isDigitIn 16) then
    (Text.scalar? (Text.numeral 16 digits)).map (·, s.drop count)
  else
    none

def escape : List Char → Step Char
  | 'b' :: r => some ('\x08', r)
  | 't' :: r => some ('\t', r)
  | 'n' :: r => some ('\n', r)
  | 'f' :: r => some ('\x0c', r)
  | 'r' :: r => some ('\r', r)
  | 'e' :: r => some ('\x1b', r)
  | '"' :: r => some ('"', r)
  | '\\' :: r => some ('\\', r)
  | 'x' :: r => hexScalar 2 r
  | 'u' :: r => hexScalar 4 r
  | 'U' :: r => hexScalar 8 r
  | _ => none

theorem hexScalar_length_le {count : Nat} {c : Char} {s r : List Char}
    (h : hexScalar count s = some (c, r)) : r.length ≤ s.length := by
  unfold hexScalar at h
  dsimp only at h
  split at h
  · obtain ⟨_, _, heq⟩ := Option.map_eq_some_iff.mp h
    cases heq
    rw [List.length_drop]
    exact Nat.sub_le _ _
  · contradiction

theorem escape_length_lt {c : Char} {s r : List Char} (h : escape s = some (c, r)) :
    r.length < s.length := by
  unfold escape at h
  split at h
  case h_9 | h_10 | h_11 => exact Nat.lt_succ_of_le (hexScalar_length_le h)
  case h_12 => contradiction
  all_goals
    cases h
    exact Nat.lt_succ_self _

def skipBreaks (s : List Char) : List Char :=
  match s with
  | [] => []
  | '\n' :: r => skipBreaks r
  | '\r' :: '\n' :: r => skipBreaks r
  | c :: r => if isBlank c then skipBreaks r else c :: r

theorem skipBreaks_length_le (s : List Char) : (skipBreaks s).length ≤ s.length := by
  fun_induction skipBreaks s with
  | case1 => exact Nat.le_refl _
  | case2 r ih => exact Nat.le_succ_of_le ih
  | case3 r ih => exact Nat.le_succ_of_le (Nat.le_succ_of_le ih)
  | case4 c r _ _ _ ih => exact Nat.le_succ_of_le ih
  | case5 => exact Nat.le_refl _

/--
Read a string within one line behind its opening quote. `read` holds what was read of it so far,
last character first.
-/
def lineString (quote : Char) (s : List Char) (read : List Char) : Step String :=
  match s with
  | [] => none
  | c :: r =>
    if c = quote then
      some (.ofList read.reverse, r)
    else if c = '\\' ∧ quote = '"' then
      match _h : escape r with
      | none => none
      | some (c, rest) => lineString quote rest (c :: read)
    else if isPrintable c then
      lineString quote r (c :: read)
    else
      none
termination_by s.length
decreasing_by
  · exact Nat.lt_succ_of_lt (escape_length_lt _h)
  · exact Nat.lt_succ_self _

theorem lineString_length_lt {quote : Char} {text : String} {s read r : List Char}
    (h : lineString quote s read = some (text, r)) : r.length < s.length := by
  fun_induction lineString quote s read with
  | case1 => contradiction
  | case2 =>
    cases h
    exact Nat.lt_succ_self _
  | case3 => contradiction
  | case4 read c s _ _ c' rest hescape ih =>
    exact Nat.lt_succ_of_lt (Nat.lt_trans (ih h) (escape_length_lt hescape))
  | case5 c s read _ _ _ ih => exact Nat.lt_succ_of_lt (ih h)
  | case6 => contradiction

/--
The text behind a backslash at the end of a line, which joins the line with what follows the next
blanks and line breaks.
-/
def afterJoin? (s : List Char) : Option (List Char) :=
  (afterNewline? (skipBlanks s)).map skipBreaks

theorem afterJoin?_length_lt {s r : List Char} (h : afterJoin? s = some r) :
    r.length < s.length := by
  obtain ⟨t, hnewline, rfl⟩ := Option.map_eq_some_iff.mp h
  have := afterNewline?_length_lt hnewline
  have := skipBlanks_length_le s
  have := skipBreaks_length_le t
  omega

/--
The quotes that belong to a string over several lines although they stand behind the three that end
it: up to two, which then count as the last characters of the string.
-/
def extraQuotes (quote : Char) (s : List Char) : List Char :=
  (s.take 2).takeWhile (· == quote)

/--
Read a string over several lines behind its opening quotes. `read` holds what was read of it so far,
last character first.
-/
def blockString (quote : Char) (s : List Char) (read : List Char) : Step String :=
  match s with
  | [] => none
  | c :: r =>
    if c = quote ∧ r.take 2 = [quote, quote] then
      let extra := extraQuotes quote (r.drop 2)
      some (.ofList (read.reverse ++ extra), r.drop (2 + extra.length))
    else if c = '\\' ∧ quote = '"' then
      match _hjoin : afterJoin? r with
      | some rest => blockString quote rest read
      | none =>
        match _hescape : escape r with
        | none => none
        | some (c, rest) => blockString quote rest (c :: read)
    else
      match _hnewline : afterNewline? (c :: r) with
      | some rest => blockString quote rest ('\n' :: read)
      | none => if isPrintable c then blockString quote r (c :: read) else none
termination_by s.length
decreasing_by
  · exact Nat.lt_succ_of_lt (afterJoin?_length_lt _hjoin)
  · exact Nat.lt_succ_of_lt (escape_length_lt _hescape)
  · exact afterNewline?_length_lt _hnewline
  · exact Nat.lt_succ_self _

theorem blockString_length_lt {quote : Char} {text : String} {s read r : List Char}
    (h : blockString quote s read = some (text, r)) : r.length < s.length := by
  fun_induction blockString quote s read with
  | case1 => contradiction
  | case2 =>
    cases h
    rw [List.length_drop, List.length_cons]
    omega
  | case3 read c s _ _ rest hjoin ih =>
    exact Nat.lt_succ_of_lt (Nat.lt_trans (ih h) (afterJoin?_length_lt hjoin))
  | case4 => contradiction
  | case5 read c s _ _ _ c' rest hescape ih =>
    exact Nat.lt_succ_of_lt (Nat.lt_trans (ih h) (escape_length_lt hescape))
  | case6 read c s _ _ rest hnewline ih =>
    exact Nat.lt_trans (ih h) (afterNewline?_length_lt hnewline)
  | case7 read c s _ _ _ _ ih => exact Nat.lt_succ_of_lt (ih h)
  | case8 => contradiction

/--
Read a string in a kind of quotes behind the first quote. Two more quotes start a string over
several lines; a line break directly behind them does not count.
-/
def quotedString (quote : Char) (s : List Char) : Step String :=
  if s.take 2 = [quote, quote] then
    let body := s.drop 2
    blockString quote ((afterNewline? body).getD body) []
  else
    lineString quote s []

theorem quotedString_length_lt {quote : Char} {text : String} {s r : List Char}
    (h : quotedString quote s = some (text, r)) : r.length < s.length := by
  unfold quotedString at h
  split at h
  · have hlt := blockString_length_lt h
    have : ((afterNewline? (s.drop 2)).getD (s.drop 2)).length ≤ (s.drop 2).length := by
      cases hnewline : afterNewline? (s.drop 2) with
      | none => exact Nat.le_refl _
      | some t => exact Nat.le_of_lt (afterNewline?_length_lt hnewline)
    have := List.length_drop (i := 2) (l := s)
    omega
  · exact lineString_length_lt h

end SymbolSearch.Toml
