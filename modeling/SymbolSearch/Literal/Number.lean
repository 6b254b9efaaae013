import SymbolSearch.Literal.Value
import SymbolSearch.Text.Numeral

/-!
This module contains the numbers of the literal language.
-/

namespace SymbolSearch.Literal

/--
The characters that a number is read from. A number ends only at another one, so a row of them that
makes no sense as a whole is no number.
-/
def isNumberChar (c : Char) : Bool :=
  c.isDigit || c == '-' || c == '+' || c == '.' || c == 'e' || c == 'E'

/--
Whether a text starts with a minus sign, and the text without its sign.
-/
def splitSign : List Char → Bool × List Char
  | '-' :: r => (true, r)
  | '+' :: r => (false, r)
  | s => (false, s)

def signed (negative : Bool) (n : Nat) : Int :=
  if negative then -n else n

/--
The whole number that a text writes: digits with at most one sign in front.
-/
def integer? (text : List Char) : Option Int :=
  let (negative, digits) := splitSign text
  if !digits.isEmpty ∧ digits.all Char.isDigit then
    some (signed negative (Text.numeral 10 digits))
  else
    none

def isWord64 (n : Int) : Bool :=
  -0x8000000000000000 ≤ n && n < 0x8000000000000000

/--
The least number that is too large for double precision: it lies in the middle between the largest
finite one and the next power of two, and the tie goes to the power.
-/
def overflow : Nat :=
  1 <<< 1024 - 1 <<< 970

/--
Whether the number `significand * 10 ^ exponent` is below `overflow`, where the significand has
`digits` digits. Only numbers of about as many digits as `overflow` need to be computed.
-/
def isFinite (significand digits : Nat) (exponent : Int) : Bool :=
  if significand = 0 ∨ digits + exponent < 300 then
    true
  else if 320 < digits + exponent then
    false
  else
    significand * Nat.pow 10 exponent.toNat < overflow * Nat.pow 10 (-exponent).toNat

/--
The exponent behind the digits of a decimal; it is zero if there is none.
-/
def exponent? : List Char → Option Int
  | [] => some 0
  | 'e' :: r | 'E' :: r => integer? r
  | _ => none

/--
The decimal that a text writes: digits with a point somewhere among them, at its end or at its
start, a sign in front and an exponent behind. Point, sign and exponent may be missing; digits may
not. The value has to be finite in double precision.
-/
def decimal? (text : List Char) : Option Value :=
  let (negative, s) := splitSign text
  let whole := s.takeWhile Char.isDigit
  let (fraction, tail) :=
    match s.dropWhile Char.isDigit with
    | '.' :: r => (r.takeWhile Char.isDigit, r.dropWhile Char.isDigit)
    | r => ([], r)
  let digits := (whole ++ fraction).dropWhile (· == '0')
  let significand := Text.numeral 10 digits
  match exponent? tail with
  | none => none
  | some shift =>
    let exponent := shift - fraction.length
    if (!whole.isEmpty || !fraction.isEmpty) && isFinite significand digits.length exponent then
      some (.decimal (signed negative significand) exponent)
    else
      none

/--
The number that a text writes.
-/
def number? (text : List Char) : Option Value :=
  match integer? text with
  | some n => if isWord64 n then some (.integer n) else decimal? text
  | none => decimal? text

end SymbolSearch.Literal
