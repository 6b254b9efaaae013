import Mathlib.Algebra.Field.Rat
import SymbolSearch.Proofs.Literal.Grammar

/-!
This module contains the grammar of documents in the JSON format. It says of a text which document it is
and does not depend on how such texts are written or read here.
-/

namespace SymbolSearch.Json

open Literal (HexDigits)

/--
What a document says. A number counts by its value, however it is written, and the fields of an object
keep their order.
-/
inductive Tree
  | null
  | boolean (value : Bool)
  | number (value : ℚ)
  | string (value : String)
  | array (items : List Tree)
  | object (fields : List (String × Tree))

/--
The characters that may stand between the parts of a document.
-/
def isSpace (c : Char) : Bool :=
  c == ' ' || c == '\t' || c == '\n' || c == '\r'

/--
A number has digits in front of its point and behind it, if there is one, and no zero in front of
another digit.
-/
structure Numeral extends Literal.Numeral where
  hne : whole ≠ []
  hzero : whole.head? = some '0' → whole = ['0']
  hpoint : fraction? ≠ some []

def Numeral.value (numeral : Numeral) : ℚ :=
  Literal.signed numeral.negative numeral.significand * 10 ^ numeral.exponent

def letterEscapes : List (Char × Char) :=
  [
    ('"', '"'), ('\\', '\\'), ('/', '/'), ('b', '\x08'), ('f', '\x0c'), ('n', '\n'), ('r', '\r'),
    ('t', '\t')
  ]

/--
Whether a text spells a character inside a string.
-/
inductive Spells (c : Char) : List Char → Prop
  | raw (hcontrol : 0x20 ≤ c.toNat) (hquote : c ≠ '"') (hbackslash : c ≠ '\\') : Spells c [c]
  | letter {name : Char} (h : (name, c) ∈ letterEscapes) : Spells c ['\\', name]
  | fourDigits (hex : HexDigits c.toNat) (h : hex.digits.length = 4) :
      Spells c ('\\' :: 'u' :: hex.digits)
  /-- Two halves of a surrogate pair, each by its offset in the range of its half. -/
  | pair {high low : Nat} (hhigh : high < 0x400) (hlow : low < 0x400)
      (hvalue : c.toNat = 0x10000 + high * 0x400 + low)
      (first : HexDigits (0xD800 + high)) (hfirst : first.digits.length = 4)
      (second : HexDigits (0xDC00 + low)) (hsecond : second.digits.length = 4) :
      Spells c ('\\' :: 'u' :: (first.digits ++ '\\' :: 'u' :: second.digits))

/--
Whether a text is the rest of a string with the given characters, up to and including the quote that
closes it.
-/
inductive Body : List Char → List Char → Prop
  | close : Body [] ['"']
  | char {c : Char} {chars text rest : List Char} (h : Spells c text) (hrest : Body chars rest) :
      Body (c :: chars) (text ++ rest)

/--
Whether a text is a row of parts with commas between them, up to and including the character that closes
the row. No comma stands behind the last part.
-/
inductive Row {α : Type} (writes : α → List Char → Prop) (close : Char) : List α → List Char → Prop
  | empty {space : List Char} (hspace : space.all isSpace) : Row writes close [] (space ++ [close])
  | last {part : α} {before text behind : List Char} (hbefore : before.all isSpace)
      (h : writes part text) (hbehind : behind.all isSpace) :
      Row writes close [part] (before ++ (text ++ (behind ++ [close])))
  | more {part next : α} {parts : List α} {before text behind rest : List Char}
      (hbefore : before.all isSpace) (h : writes part text) (hbehind : behind.all isSpace)
      (hrest : Row writes close (next :: parts) rest) :
      Row writes close (part :: next :: parts) (before ++ (text ++ (behind ++ ',' :: rest)))

mutual

/--
Whether a text without space around it says something.
-/
inductive Writes : Tree → List Char → Prop
  | null : Writes .null ['n', 'u', 'l', 'l']
  | yes : Writes (.boolean true) ['t', 'r', 'u', 'e']
  | no : Writes (.boolean false) ['f', 'a', 'l', 's', 'e']
  | number (numeral : Numeral) : Writes (.number numeral.value) numeral.text
  | string {chars text : List Char} (h : Body chars text) :
      Writes (.string (.ofList chars)) ('"' :: text)
  | array {items : List Tree} {text : List Char} (h : Row Writes ']' items text) :
      Writes (.array items) ('[' :: text)
  | object {fields : List (String × Tree)} {text : List Char} (h : Row WritesField '}' fields text) :
      Writes (.object fields) ('{' :: text)

/--
Whether a text writes a field of an object: its name and its value with a colon between them.
-/
inductive WritesField : String × Tree → List Char → Prop
  | colon {chars name before behind text : List Char} {value : Tree} (hname : Body chars name)
      (hbefore : before.all isSpace) (hbehind : behind.all isSpace) (h : Writes value text) :
      WritesField (.ofList chars, value) ('"' :: (name ++ (before ++ ':' :: (behind ++ text))))

end

/--
Whether a text is a document that says something.
-/
def Document (text : String) (tree : Tree) : Prop :=
  ∃ before part behind : List Char, before.all isSpace ∧ behind.all isSpace ∧ Writes tree part ∧
    text.toList = before ++ (part ++ behind)

/--
Whether a reader takes a text for what it says if it is a document. It may do what it likes with any
other text.
-/
def Reads (read : String → Option Tree) (text : String) : Prop :=
  ∀ tree, Document text tree → read text = some tree

end SymbolSearch.Json
