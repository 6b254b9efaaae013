import SymbolSearch.Text.Numeral

/-!
This module contains character references, the way a text in HTML writes characters by number or by
name, and `decode`, which puts the characters in their place.
-/

namespace SymbolSearch.Text

/--
A complete reference, without the ampersand in front and the semicolon at the end.
-/
inductive Reference
  | hexadecimal (digits : List Char)
  | decimal (digits : List Char)
  | named (name : List Char)
  deriving Repr, DecidableEq

namespace Reference

/--
The names that stand for a character.
-/
def names : List (String × Char) :=
  [
    ("amp", '&'), ("lt", '<'), ("gt", '>'), ("quot", '"'), ("apos", '\''), ("nbsp", '\u00a0'),
    ("ndash", '\u2013'), ("mdash", '\u2014'), ("hellip", '\u2026')
  ]

/--
The character that a reference stands for. Numbers that are no Unicode scalar value and unknown
names stand for none.
-/
def char? : Reference → Option Char
  | hexadecimal digits => scalar? (numeral 16 digits)
  | decimal digits => scalar? (numeral 10 digits)
  | named name => names.lookup (.ofList name)

/--
Cut a text at the semicolon that ends a row of characters of one class, of which there has to be at
least one.
-/
def closed? (p : Char → Bool) (s : List Char) : Option (List Char × List Char) :=
  match s.takeWhile p, s.dropWhile p with
  | c :: body, ';' :: rest => some (c :: body, rest)
  | _, _ => none

/--
Cut a text at the semicolon that ends a row of at most `limit` digits.
-/
def digits? (base limit : Nat) (s : List Char) : Option (List Char × List Char) :=
  (closed? (isDigitIn base) s).filter fun (digits, _) => digits.length ≤ limit

/--
Read a reference behind its ampersand. Numbers have up to six hexadecimal or seven decimal digits,
names any number of ASCII letters.
-/
def read? : List Char → Option (Reference × List Char)
  | '#' :: 'x' :: s | '#' :: 'X' :: s =>
    (digits? 16 6 s).map fun (digits, rest) => (hexadecimal digits, rest)
  | '#' :: s => (digits? 10 7 s).map fun (digits, rest) => (decimal digits, rest)
  | s => (closed? Char.isAlpha s).map fun (name, rest) => (named name, rest)

theorem closed?_length_lt {p : Char → Bool} {s body rest : List Char}
    (h : closed? p s = some (body, rest)) : rest.length < s.length := by
  have hle : (s.dropWhile p).length ≤ s.length := (List.dropWhile_suffix p).length_le
  unfold closed? at h
  split at h
  · next hdrop =>
    cases h
    rw [hdrop, List.length_cons] at hle
    exact hle
  · contradiction

theorem digits?_length_lt {base limit : Nat} {s digits rest : List Char}
    (h : digits? base limit s = some (digits, rest)) : rest.length < s.length :=
  closed?_length_lt (Option.filter_eq_some_iff.mp h).1

theorem read?_length_lt {s rest : List Char} {ref : Reference} (h : read? s = some (ref, rest)) :
    rest.length < s.length := by
  unfold read? at h
  split at h
  · obtain ⟨⟨_, _⟩, hdigits, heq⟩ := Option.map_eq_some_iff.mp h
    cases heq
    exact Nat.lt_add_right 2 (digits?_length_lt hdigits)
  · obtain ⟨⟨_, _⟩, hdigits, heq⟩ := Option.map_eq_some_iff.mp h
    cases heq
    exact Nat.lt_add_right 2 (digits?_length_lt hdigits)
  · obtain ⟨⟨_, _⟩, hdigits, heq⟩ := Option.map_eq_some_iff.mp h
    cases heq
    exact Nat.lt_add_right 1 (digits?_length_lt hdigits)
  · obtain ⟨⟨_, _⟩, hname, heq⟩ := Option.map_eq_some_iff.mp h
    cases heq
    exact closed?_length_lt hname

end Reference

/--
Replace each complete reference by the character that it stands for. The text is read once from left
to right, so what a reference stands for is never read again; whatever stands for no character is
kept.
-/
def decode (s : List Char) : List Char :=
  match s with
  | [] => []
  | '&' :: r =>
    match _h : Reference.read? r with
    | none => '&' :: decode r
    | some (ref, rest) =>
      match ref.char? with
      | none => '&' :: decode r
      | some c => c :: decode rest
  | c :: r => c :: decode r
termination_by s.length
decreasing_by
  · exact Nat.lt_succ_self _
  · exact Nat.lt_succ_self _
  · exact Nat.lt_succ_of_lt (Reference.read?_length_lt _h)
  · exact Nat.lt_succ_self _

def decoded (s : String) : String :=
  .ofList (decode s.toList)

end SymbolSearch.Text
