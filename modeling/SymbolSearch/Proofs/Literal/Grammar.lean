import Mathlib.Algebra.Group.Nat.Defs
import SymbolSearch.Literal.Reader
import SymbolSearch.Proofs.Literal.Rendering
import SymbolSearch.Proofs.Text.Span

/-!
This module contains the grammar of everything that is read as a literal. A part of the grammar says of
a text what it writes and, where that matters, what may stand behind it.
-/

namespace SymbolSearch.Literal

open Text (Stops)

/--
Gaps up to the end of the text. A comment that nothing follows needs no line break.
-/
structure Tail where
  gaps : Gaps
  comment? : Option (List Char)
  hcomment : ∀ comment ∈ comment?, '\n' ∉ comment

def Tail.text (tail : Tail) : List Char :=
  tail.gaps.text ++ tail.comment?.elim [] ('/' :: '/' :: ·)

/--
What may stand behind the value: one semicolon or none, and gaps.
-/
structure Ending where
  semicolon? : Option Gaps
  tail : Tail

def Ending.text (ending : Ending) : List Char :=
  ending.semicolon?.elim [] (·.text ++ [';']) ++ ending.tail.text

inductive Sign
  | none
  | plus
  | minus
  deriving DecidableEq

def Sign.text : Sign → List Char
  | none => []
  | plus => ['+']
  | minus => ['-']

structure Exponent where
  letter : Char
  sign : Sign
  digits : List Char
  hletter : letter = 'e' ∨ letter = 'E'
  hne : digits ≠ []
  hall : digits.all Char.isDigit

def Exponent.text (exponent : Exponent) : List Char :=
  exponent.letter :: (exponent.sign.text ++ exponent.digits)

def Exponent.value (exponent : Exponent) : Int :=
  signed (exponent.sign = .minus) (Text.numeral 10 exponent.digits)

/--
A number: digits, a point among them or at one of their ends, and an exponent. Without a minus sign the
first character is a digit.
-/
structure Numeral where
  negative : Bool
  whole : List Char
  fraction? : Option (List Char)
  exponent? : Option Exponent
  hwhole : whole.all Char.isDigit
  hfraction : ∀ fraction ∈ fraction?, fraction.all Char.isDigit
  hdigits : whole ++ fraction?.getD [] ≠ []
  hstart : negative = false → whole ≠ []

namespace Numeral

def text (numeral : Numeral) : List Char :=
  (if numeral.negative then ['-'] else []) ++ (numeral.whole ++
    (numeral.fraction?.elim [] ('.' :: ·) ++ numeral.exponent?.elim [] Exponent.text))

def significand (numeral : Numeral) : Nat :=
  Text.numeral 10 (numeral.whole ++ numeral.fraction?.getD [])

def exponent (numeral : Numeral) : Int :=
  numeral.exponent?.elim 0 Exponent.value - (numeral.fraction?.getD []).length

/--
Whether the value is finite in double precision.
-/
def IsFinite (numeral : Numeral) : Prop :=
  numeral.significand * 10 ^ numeral.exponent.toNat < overflow * 10 ^ (-numeral.exponent).toNat

/--
A number without point and exponent is an integer if it fits into 64 bits.
-/
def value (numeral : Numeral) : Value :=
  let significand := signed numeral.negative numeral.significand
  if numeral.fraction? = .none ∧ numeral.exponent?.isNone ∧ isWord64 significand then
    .integer significand
  else
    .decimal significand numeral.exponent

end Numeral

/--
Whether the first half of a surrogate pair stays alone in front of a text. A Unicode escape that
follows at once must not be the second half and has to have four digits.
-/
def LeavesAlone (behind : List Char) : Prop :=
  ∀ next, behind = '\\' :: 'u' :: next →
    ∃ n, ∃ hex : HexDigits n, hex.digits.length = 4 ∧ isLowSurrogate n = false ∧ hex.digits <+: next

/--
What an escape stands for, without its backslash and in front of the rest of the string.
-/
inductive Escape (behind : List Char) : List Char → Option Char → Prop
  | letter {name c : Char} (h : (name, c) ∈ letterEscapes) : Escape behind [name] (some c)
  | itself {c : Char} (h : c ∉ reserved) : Escape behind [c] (some c)
  | continuation (lineBreak : LineBreak)
      (h : lineBreak = .carriageReturn → Stops (· == '\n') behind) :
      Escape behind lineBreak.text none
  | twoDigits {n : Nat} (hex : HexDigits n) (h : hex.digits.length = 2) :
      Escape behind ('x' :: hex.digits) (some (charOfCode n))
  | fourDigits {n : Nat} (hex : HexDigits n) (h : hex.digits.length = 4)
      (halone : isHighSurrogate n → LeavesAlone behind) :
      Escape behind ('u' :: hex.digits) (some (charOfCode n))
  | pair {high low : Nat} (hhigh : isHighSurrogate high) (hlow : isLowSurrogate low)
      (first : HexDigits high) (hfirst : first.digits.length = 4)
      (second : HexDigits low) (hsecond : second.digits.length = 4) :
      Escape behind ('u' :: (first.digits ++ '\\' :: 'u' :: second.digits))
        (some (surrogatePair high low))
  | braces {n : Nat} (plus : Bool) (hex : HexDigits n) (hne : hex.digits ≠ [])
      (hn : n < UInt32.size) :
      Escape behind ('u' :: '{' :: ((if plus then ['+'] else []) ++ (hex.digits ++ ['}'])))
        (some (charOfCode n))

/--
The rest of a string up to and including the quote that closes it, and the characters that it holds.
-/
inductive Body (quote : Quote) : List Char → List Char → Prop
  | close : Body quote [quote.char] []
  | raw {c : Char} {text chars : List Char} (hquote : c ≠ quote.char) (hbackslash : c ≠ '\\')
      (hnewline : c ≠ '\n') (h : Body quote text chars) : Body quote (c :: text) (c :: chars)
  | escape {escaped text chars : List Char} {c? : Option Char} (hescape : Escape text escaped c?)
      (h : Body quote text chars) : Body quote ('\\' :: (escaped ++ text)) (c?.toList ++ chars)

def words : List (List Char × Value) :=
  [
    (['n', 'u', 'l', 'l'], .null),
    (['u', 'n', 'd', 'e', 'f', 'i', 'n', 'e', 'd'], .null),
    (['t', 'r', 'u', 'e'], .boolean true),
    (['f', 'a', 'l', 's', 'e'], .boolean false)
  ]

mutual

/--
Whether a text in front of another one writes a value.
-/
inductive Writes : List Char → List Char → Value → Prop
  | word {name behind : List Char} {value : Value} (h : (name, value) ∈ words)
      (hstops : Stops isNameChar behind) : Writes name behind value
  | number {behind : List Char} (numeral : Numeral) (hfinite : numeral.IsFinite)
      (hstops : Stops isNumberChar behind) : Writes numeral.text behind numeral.value
  | string {text behind chars : List Char} (quote : Quote) (h : Body quote text chars) :
      Writes (quote.char :: text) behind (.string (.ofList chars))
  | array {text behind : List Char} {items : List Value} (h : WritesItems text items) :
      Writes ('[' :: text) behind (.array items)

/--
Whether a text writes the items of an array, from behind its opening bracket or a comma in it up to and
including the closing bracket.
-/
inductive WritesItems : List Char → List Value → Prop
  | close (before : Gaps) : WritesItems (before.text ++ [']']) []
  | last {text : List Char} {item : Value} (before behind : Gaps)
      (h : Writes text (behind.text ++ [']']) item) :
      WritesItems (before.text ++ (text ++ (behind.text ++ [']']))) [item]
  | more {text rest : List Char} {item : Value} {items : List Value} (before behind : Gaps)
      (h : Writes text (behind.text ++ ',' :: rest) item) (hrest : WritesItems rest items) :
      WritesItems (before.text ++ (text ++ (behind.text ++ ',' :: rest))) (item :: items)

end

end SymbolSearch.Literal
