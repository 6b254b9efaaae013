import SymbolSearch.Literal.Number
import SymbolSearch.Text.Blank

/-!
This module contains the ways to write a value down as a literal. A rendering fixes every choice that
the language leaves: what stands between the parts, how each character of a string is spelled, and
whether a comma stands behind the last item of an array.
-/

namespace SymbolSearch.Literal

/--
How deep arrays lie inside each other in a value.
-/
def Value.depth : Value → Nat
  | .array items => go items + 1
  | _ => 0
where
  go : List Value → Nat
    | [] => 0
    | item :: rest => max item.depth (go rest)

/--
A blank or a comment.
-/
inductive Gap
  | blank (c : Char) (h : Text.isBlank c)
  | line (text : List Char) (h : '\n' ∉ text)
  | block (text : List Char) (h : ¬['*', '/'] <:+: text)

def Gap.text : Gap → List Char
  | blank c _ => [c]
  | line text _ => '/' :: '/' :: (text ++ ['\n'])
  | block text _ => '/' :: '*' :: (text ++ ['*', '/'])

def Gap.isComment : Gap → Bool
  | blank _ _ => false
  | line _ _ => true
  | block _ _ => true

abbrev Gaps := List Gap

def Gaps.text (gaps : Gaps) : List Char :=
  gaps.flatMap Gap.text

inductive Quote
  | single
  | double

def Quote.char : Quote → Char
  | single => '\''
  | double => '"'

def letterEscapes : List (Char × Char) :=
  [
    ('n', '\n'), ('t', '\t'), ('r', '\r'), ('b', '\x08'), ('f', '\x0c'), ('v', '\x0b'), ('0', '\x00')
  ]

/--
The characters that have a meaning of their own behind a backslash.
-/
def reserved : List Char :=
  ['n', 't', 'r', 'b', 'f', 'v', '0', '\n', '\r', 'x', 'u']

structure HexDigits (n : Nat) where
  digits : List Char
  all : digits.all (Text.isDigitIn 16)
  value : Text.numeral 16 digits = n

/--
A way to write a character between quotes.
-/
inductive Spelling (quote : Quote) (c : Char)
  | raw (hquote : c ≠ quote.char) (hbackslash : c ≠ '\\') (hnewline : c ≠ '\n')
  | letter (name : Char) (h : (name, c) ∈ letterEscapes)
  | itself (h : c ∉ reserved)
  | twoDigits (hex : HexDigits c.toNat) (h : hex.digits.length = 2)
  | fourDigits (hex : HexDigits c.toNat) (h : hex.digits.length = 4)
  /-- Two halves of a surrogate pair, each by its offset in the range of its half. -/
  | pair (high low : Nat) (hhigh : high < 0x400) (hlow : low < 0x400)
      (hvalue : c.toNat = 0x10000 + high * 0x400 + low)
      (first : HexDigits (0xD800 + high)) (hfirst : first.digits.length = 4)
      (second : HexDigits (0xDC00 + low)) (hsecond : second.digits.length = 4)
  | braces (hex : HexDigits c.toNat) (h : hex.digits ≠ [])

def Spelling.text {quote : Quote} {c : Char} : Spelling quote c → List Char
  | raw _ _ _ => [c]
  | letter name _ => ['\\', name]
  | itself _ => ['\\', c]
  | twoDigits hex _ => '\\' :: 'x' :: hex.digits
  | fourDigits hex _ => '\\' :: 'u' :: hex.digits
  | pair _ _ _ _ _ first _ second _ => '\\' :: 'u' :: (first.digits ++ '\\' :: 'u' :: second.digits)
  | braces hex _ => '\\' :: 'u' :: '{' :: (hex.digits ++ ['}'])

inductive LineBreak
  | lineFeed
  | carriageReturn
  | both

def LineBreak.text : LineBreak → List Char
  | lineFeed => ['\n']
  | carriageReturn => ['\r']
  | both => ['\r', '\n']

/--
A piece of a string: one of its characters, or a line break that is not part of it.
-/
inductive Piece (quote : Quote)
  | char (c : Char) (spelling : Spelling quote c)
  | continuation (lineBreak : LineBreak)

def Piece.text {quote : Quote} : Piece quote → List Char
  | char _ spelling => spelling.text
  | continuation lineBreak => '\\' :: lineBreak.text

def Piece.char? {quote : Quote} : Piece quote → Option Char
  | char c _ => some c
  | continuation _ => none

mutual

inductive Rendering
  | null
  | undefined
  | boolean (value : Bool)
  | integer (negative : Bool) (digits : List Char) (hne : digits ≠ []) (hall : digits.all Char.isDigit)
      (hfits : isWord64 (signed negative (Text.numeral 10 digits)))
  | string (quote : Quote) (pieces : List (Piece quote))
  | array (items : Items)

/--
A way to write what stands behind the opening bracket of an array, or behind a comma in it.
-/
inductive Items
  | close (before : Gaps)
  | last (before : Gaps) (item : Rendering) (behind : Gaps)
  | more (before : Gaps) (item : Rendering) (behind : Gaps) (rest : Items)

end

mutual

def Rendering.value : Rendering → Value
  | .null => .null
  | .undefined => .null
  | .boolean value => .boolean value
  | .integer negative digits _ _ _ => .integer (signed negative (Text.numeral 10 digits))
  | .string _ pieces => .string (.ofList (pieces.filterMap Piece.char?))
  | .array items => .array items.values

def Items.values : Items → List Value
  | .close _ => []
  | .last _ item _ => [item.value]
  | .more _ item _ rest => item.value :: rest.values

end

mutual

def Rendering.text : Rendering → List Char
  | .null => ['n', 'u', 'l', 'l']
  | .undefined => ['u', 'n', 'd', 'e', 'f', 'i', 'n', 'e', 'd']
  | .boolean true => ['t', 'r', 'u', 'e']
  | .boolean false => ['f', 'a', 'l', 's', 'e']
  | .integer true digits _ _ _ => '-' :: digits
  | .integer false digits _ _ _ => digits
  | .string quote pieces => quote.char :: (pieces.flatMap Piece.text ++ [quote.char])
  | .array items => '[' :: items.text

def Items.text : Items → List Char
  | .close before => before.text ++ [']']
  | .last before item behind => before.text ++ (item.text ++ (behind.text ++ [']']))
  | .more before item behind rest =>
    before.text ++ (item.text ++ (behind.text ++ ',' :: rest.text))

end

mutual

/--
The text in front of the first bracket that opens an array inside `level` others, if there is one.
-/
def Rendering.opening? (level : Nat) : Rendering → Option (List Char)
  | .array items =>
    match level with
    | 0 => some []
    | level + 1 => (items.opening? level).map ('[' :: ·)
  | _ => none

def Items.opening? (level : Nat) : Items → Option (List Char)
  | .close _ => none
  | .last before item _ => (item.opening? level).map (before.text ++ ·)
  | .more before item behind rest =>
    match item.opening? level with
    | some front => some (before.text ++ front)
    | none => (rest.opening? level).map (before.text ++ item.text ++ behind.text ++ ',' :: ·)

end

/--
A way to write a value as a whole text.
-/
structure Document where
  before : Gaps
  root : Rendering
  behind : Gaps
  semicolon? : Option Gaps

namespace Document

def value (document : Document) : Value :=
  document.root.value

def ending (document : Document) : List Char :=
  document.behind.text ++
    match document.semicolon? with
    | none => []
    | some gaps => ';' :: gaps.text

def text (document : Document) : List Char :=
  document.before.text ++ (document.root.text ++ document.ending)

def opening? (level : Nat) (document : Document) : Option (List Char) :=
  (document.root.opening? level).map (document.before.text ++ ·)

end Document

end SymbolSearch.Literal
