import SymbolSearch.Text.Numeral

/-!
This module contains whole numbers in decimal and three other bases.
-/

namespace SymbolSearch.Toml

/--
Whether a text consists of digits in a base, with single underscores allowed between them.
-/
def isGrouped (base : Nat) : List Char → Bool
  | [] => false
  | [c] => Text.isDigitIn base c
  | c :: '_' :: r => Text.isDigitIn base c && isGrouped base r
  | c :: r => Text.isDigitIn base c && isGrouped base r

/--
The number that digits with underscores between them write.
-/
def grouped? (base : Nat) (s : List Char) : Option Nat :=
  if isGrouped base s then some (Text.numeral base (s.filter (· != '_'))) else none

/--
The number that decimal digits with underscores between them write. Only zero itself starts with a
zero.
-/
def decimal? (s : List Char) : Option Nat :=
  if s.head? = some '0' ∧ s.length ≠ 1 then none else grouped? 10 s

/--
The whole number that a text writes. Only decimal numbers may have a sign.
-/
def integer? : List Char → Option Int
  | '0' :: 'x' :: r => (grouped? 16 r).map Int.ofNat
  | '0' :: 'o' :: r => (grouped? 8 r).map Int.ofNat
  | '0' :: 'b' :: r => (grouped? 2 r).map Int.ofNat
  | '+' :: r => (decimal? r).map Int.ofNat
  | '-' :: r => (decimal? r).map fun n => -(n : Int)
  | s => (decimal? s).map Int.ofNat

end SymbolSearch.Toml
