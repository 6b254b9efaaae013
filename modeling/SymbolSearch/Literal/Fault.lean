import SymbolSearch.Text.Bytes

/-!
This module contains the faults that end the reading of a literal.
-/

namespace SymbolSearch.Literal

/--
Why a text is no literal.
-/
inductive Cause
  | endOfText
  /-- No value starts with this character. -/
  | character (c : Char)
  /-- A bare word that is no value. -/
  | word (text : String)
  /-- A row of number characters that is no number. -/
  | number (text : String)
  /-- An array inside too many others. -/
  | nesting
  | openComment
  | openArray
  /-- Neither a comma nor the end of the array stands behind an item. -/
  | separator (c : Char)
  | openString
  | newline
  | openEscape
  /-- An escape without the hexadecimal digits that it needs. -/
  | hexEscape
  /-- An escape in braces without the closing brace. -/
  | openCodePoint
  /-- An escape in braces that holds no number. -/
  | codePoint
  | trailing
  deriving Repr, DecidableEq

def Cause.message : Cause → String
  | endOfText => "unexpected end of input"
  | character c => "unexpected character '" ++ c.toString ++ "'"
  | word text => "unexpected identifier '" ++ text ++ "'"
  | number text => "invalid number '" ++ text ++ "'"
  | nesting => "nesting too deep"
  | openComment => "unterminated block comment"
  | openArray => "unterminated array"
  | separator c => "expected ',' or ']', found '" ++ c.toString ++ "'"
  | openString => "unterminated string"
  | newline => "newline in string literal"
  | openEscape => "unterminated escape sequence"
  | hexEscape => "invalid hex escape"
  | openCodePoint => "unterminated unicode escape"
  | codePoint => "invalid unicode escape"
  | trailing => "unexpected content after literal"

/--
A fault: its cause and the text that was not yet read when it was noticed.
-/
structure Fault where
  cause : Cause
  rest : List Char
  deriving Repr, DecidableEq

/--
The place of a fault, counted in bytes from the start of the text that was read.
-/
def Fault.offset (fault : Fault) (text : List Char) : Nat :=
  Text.byteLength text - Text.byteLength fault.rest

/--
The outcome of reading something at the start of a text: what was read and the text behind it.
-/
abbrev Step (α : Type) :=
  Except Fault (α × List Char)

def mapRead (f : α → β) : Step α → Step β
  | .error fault => .error fault
  | .ok (a, rest) => .ok (f a, rest)

theorem mapRead_eq_ok {f : α → β} {step : Step α} {b : β} {r : List Char}
    (h : mapRead f step = .ok (b, r)) : ∃ a, step = .ok (a, r) ∧ f a = b := by
  unfold mapRead at h
  split at h
  · contradiction
  · cases h
    exact ⟨_, rfl, rfl⟩

end SymbolSearch.Literal
