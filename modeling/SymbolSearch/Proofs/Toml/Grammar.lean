import SymbolSearch.Proofs.Literal.Rendering
import SymbolSearch.Toml.Reader

/-!
This module contains the grammar of documents in the TOML format, as far as their lines assign whole
numbers, strings and arrays of these. It says of a text what it writes and does not depend on how such
texts are read here.
-/

namespace SymbolSearch.Toml

open Literal (HexDigits)

inductive Newline : List Char → Prop
  | lf : Newline ['\n']
  | crlf : Newline ['\r', '\n']

/--
Whether a text is a comment, without the line break behind it.
-/
inductive Comment : List Char → Prop
  | mk {text : List Char} (h : text.all isPrintable) : Comment ('#' :: text)

/--
Whether a text means nothing between two lines and between the parts of an array.
-/
inductive Layout : List Char → Prop
  | nil : Layout []
  | blank {c : Char} {rest : List Char} (hc : isBlank c) (hrest : Layout rest) : Layout (c :: rest)
  | newline {text rest : List Char} (h : Newline text) (hrest : Layout rest) : Layout (text ++ rest)
  | comment {text newline rest : List Char} (hcomment : Comment text) (h : Newline newline)
      (hrest : Layout rest) : Layout (text ++ (newline ++ rest))

/--
Whether a text means nothing between a statement and the end of its line.
-/
inductive Ending : List Char → Prop
  | blanks {text : List Char} (h : text.all isBlank) : Ending text
  | comment {blanks text : List Char} (h : blanks.all isBlank) (hcomment : Comment text) :
      Ending (blanks ++ text)

def letterEscapes : List (Char × Char) :=
  [
    ('b', '\x08'), ('t', '\t'), ('n', '\n'), ('f', '\x0c'), ('r', '\r'), ('"', '"'), ('\\', '\\')
  ]

/--
Whether a text spells a character between double quotes.
-/
inductive Spells (c : Char) : List Char → Prop
  | raw (hprintable : isPrintable c) (hquote : c ≠ '"') (hbackslash : c ≠ '\\') : Spells c [c]
  | letter {name : Char} (h : (name, c) ∈ letterEscapes) : Spells c ['\\', name]
  | fourDigits (hex : HexDigits c.toNat) (h : hex.digits.length = 4) :
      Spells c ('\\' :: 'u' :: hex.digits)
  | eightDigits (hex : HexDigits c.toNat) (h : hex.digits.length = 8) :
      Spells c ('\\' :: 'U' :: hex.digits)

/--
Whether a text is the rest of a string with the given characters, up to and including the double quote
that closes it.
-/
inductive Body : List Char → List Char → Prop
  | close : Body [] ['"']
  | char {c : Char} {chars text rest : List Char} (h : Spells c text) (hrest : Body chars rest) :
      Body (c :: chars) (text ++ rest)

/--
Whether a text is a string within one line, its quotes included.
-/
inductive WritesString (value : String) : List Char → Prop
  | literal (h : value.toList.all fun c => isPrintable c && c != '\'') :
      WritesString value ('\'' :: (value.toList ++ ['\'']))
  | basic {text : List Char} (h : Body value.toList text) : WritesString value ('"' :: text)

inductive WritesName (name : String) : List Char → Prop
  | bare (hne : name.toList ≠ []) (h : name.toList.all isBareChar) : WritesName name name.toList
  | quoted {text : List Char} (h : WritesString name text) : WritesName name text

inductive WritesKey : Key → List Char → Prop
  | last {name : String} {text : List Char} (h : WritesName name text) : WritesKey [name] text
  | more {name : String} {key : Key} {text before behind rest : List Char} (h : WritesName name text)
      (hbefore : before.all isBlank) (hbehind : behind.all isBlank) (hrest : WritesKey key rest) :
      WritesKey (name :: key) (text ++ (before ++ '.' :: (behind ++ rest)))

inductive WritesScalar : Value → List Char → Prop
  | integer (n : Nat) : WritesScalar (.integer n) (Nat.toDigits 10 n)
  | string {value : String} {text : List Char} (h : WritesString value text) :
      WritesScalar (.string value) text

/--
Whether a text writes the items of an array, from behind its opening bracket or a comma in it up to and
including the closing bracket.
-/
inductive WritesItems : List Value → List Char → Prop
  | close {before : List Char} (hbefore : Layout before) : WritesItems [] (before ++ [']'])
  | last {item : Value} {before text behind : List Char} (hbefore : Layout before)
      (h : WritesScalar item text) (hbehind : Layout behind) :
      WritesItems [item] (before ++ (text ++ (behind ++ [']'])))
  | more {item : Value} {items : List Value} {before text behind rest : List Char}
      (hbefore : Layout before) (h : WritesScalar item text) (hbehind : Layout behind)
      (hrest : WritesItems items rest) :
      WritesItems (item :: items) (before ++ (text ++ (behind ++ ',' :: rest)))

inductive WritesValue : Value → List Char → Prop
  | scalar {value : Value} {text : List Char} (h : WritesScalar value text) : WritesValue value text
  | array {items : List Value} {text : List Char} (h : WritesItems items text) :
      WritesValue (.array items) ('[' :: text)

/--
Whether a text is a statement without anything around it.
-/
inductive WritesStatement : Statement → List Char → Prop
  | assignment {key : Key} {value : Value} {name before behind text : List Char}
      (hkey : WritesKey key name) (hbefore : before.all isBlank) (hbehind : behind.all isBlank)
      (h : WritesValue value text) :
      WritesStatement (.assignment key value) (name ++ (before ++ '=' :: (behind ++ text)))

/--
Whether a text consists of whole lines with these statements. Between them and in front of each of them
there may be layout.
-/
inductive Lines : List Statement → List Char → Prop
  | nil : Lines [] []
  | layout {statements : List Statement} {text rest : List Char} (h : Layout text)
      (hrest : Lines statements rest) : Lines statements (text ++ rest)
  | line {statement : Statement} {statements : List Statement} {text ending newline rest : List Char}
      (h : WritesStatement statement text) (hending : Ending ending) (hnewline : Newline newline)
      (hrest : Lines statements rest) :
      Lines (statement :: statements) (text ++ (ending ++ (newline ++ rest)))

/--
Whether a text is a document with these statements. Its last line needs no line break.
-/
inductive Document : List Statement → List Char → Prop
  | lines {statements : List Statement} {text : List Char} (h : Lines statements text) :
      Document statements text
  | comment {statements : List Statement} {text comment : List Char} (h : Lines statements text)
      (hcomment : Comment comment) : Document statements (text ++ comment)
  | line {statements : List Statement} {statement : Statement} {text last ending : List Char}
      (h : Lines statements text) (hlast : WritesStatement statement last) (hending : Ending ending) :
      Document (statements ++ [statement]) (text ++ (last ++ ending))

def Statement.key : Statement → Key
  | .assignment key _ => key
  | .table key => key
  | .element key => key

/--
Whether a text is the part of a statement by which it is known what the statement is about, whatever
follows.
-/
inductive Opens (key : Key) : List Char → Prop
  | assignment {name before : List Char} (hkey : WritesKey key name) (hbefore : before.all isBlank) :
      Opens key (name ++ (before ++ ['=']))
  | table {before name behind : List Char} (hbefore : before.all isBlank) (hkey : WritesKey key name)
      (hbehind : behind.all isBlank) : Opens key ('[' :: (before ++ (name ++ (behind ++ [']']))))
  | element {before name behind : List Char} (hbefore : before.all isBlank) (hkey : WritesKey key name)
      (hbehind : behind.all isBlank) :
      Opens key ('[' :: '[' :: (before ++ (name ++ (behind ++ [']', ']']))))

end SymbolSearch.Toml
