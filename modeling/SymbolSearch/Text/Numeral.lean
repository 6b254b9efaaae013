/-!
This module contains digits, the numbers that rows of digits write, and the characters that have
these numbers.
-/

namespace SymbolSearch.Text

/--
The value of an ASCII digit, where the letters of either case stand for ten to fifteen.
-/
def digitValue? (c : Char) : Option Nat :=
  if '0' ≤ c ∧ c ≤ '9' then
    some (c.toNat - '0'.toNat)
  else if 'a' ≤ c ∧ c ≤ 'f' then
    some (c.toNat - 'a'.toNat + 10)
  else if 'A' ≤ c ∧ c ≤ 'F' then
    some (c.toNat - 'A'.toNat + 10)
  else
    none

/--
Whether a character is a digit in a base of at most sixteen.
-/
def isDigitIn (base : Nat) (c : Char) : Bool :=
  (digitValue? c).any (· < base)

/--
The number that a row of digits writes, the most significant one first.
-/
def numeral (base : Nat) (digits : List Char) : Nat :=
  digits.foldl (fun n c => n * base + (digitValue? c).getD 0) 0

/--
The character with a number, if the number is a Unicode scalar value.
-/
def scalar? (n : Nat) : Option Char :=
  if n.isValidChar then some (.ofNat n) else none

theorem scalar?_toNat (c : Char) : scalar? c.toNat = some c := by
  have hvalid : c.toNat.isValidChar := c.valid
  unfold scalar?
  rw [if_pos hvalid, Char.ofNat_toNat]

end SymbolSearch.Text
