import SymbolSearch.Literal.Cursor
import SymbolSearch.Literal.Reader

/-!
This module contains the scan of a literal by a cursor. Comments, strings and arrays are scanned in
loops, part by part.
-/

namespace SymbolSearch.Literal.Scan

/--
Skip the comment in front of the cursor. Where there is none, nothing more is to be skipped.
-/
def comment (rest : List Char) : Scan (ForInStep Unit) := do
  if ['/', '/'].isPrefixOf rest then
    match Text.find? (· == '\n') rest with
    | some n =>
      advance (n + 1)
      return .yield ()
    | none =>
      moveTo (← read).size
      return .yield ()
  else if ['/', '*'].isPrefixOf rest then
    match Text.findText? ['*', '/'] (← restFrom 2) with
    | some n =>
      advance (n + 4)
      return .yield ()
    | none => fail .openComment
  else
    return .done ()

/--
Skip blanks and the comment behind them.
-/
def triviaPart : Scan (ForInStep Unit) := do
  let rest ← rest
  let trimmed := Text.trimStart rest
  advance (Text.byteLength rest - Text.byteLength trimmed)
  comment trimmed

def skipTrivia : Scan Unit :=
  call <| loop (fun _ => triviaPart) ()

def hexDigits (count : Nat) : Scan Nat := do
  match ← front? count with
  | some digits =>
    if digits.all (Text.isDigitIn 16) then
      advance count
      return Text.numeral 16 digits
    else
      fail .hexEscape
  | none => fail .hexEscape

def bracedEscape : Scan Char := do
  match Text.find? (· == '}') (← rest) with
  | some n =>
    match codePoint? (← front n) with
    | some code =>
      advance (n + 1)
      return charOfCode code
    | none => fail .codePoint
  | none => fail .openCodePoint

/--
The character to whose first half the cursor has come. It goes back if the escape that follows is not
the second half.
-/
def surrogate (high : Nat) : Scan Char := do
  if ['\\', 'u'].isPrefixOf (← rest) then
    let saved ← place
    advance 2
    let low ← hexDigits 4
    if isLowSurrogate low then
      return surrogatePair high low
    else
      moveTo saved
      return replacement
  else
    return replacement

def unicodeEscape : Scan Char := do
  if (← peek) = some '{' then
    advance 1
    bracedEscape
  else
    let high ← hexDigits 4
    if isHighSurrogate high then
      surrogate high
    else
      return charOfCode high

def escape : Scan (Option Char) := do
  match ← bump with
  | none => fail .openEscape
  | some 'n' => return some '\n'
  | some 't' => return some '\t'
  | some 'r' => return some '\r'
  | some 'b' => return some '\x08'
  | some 'f' => return some '\x0c'
  | some 'v' => return some '\x0b'
  | some '0' => return some '\x00'
  | some '\n' => return none
  | some '\r' =>
    if (← peek) = some '\n' then
      advance 1
      return none
    else
      return none
  | some 'x' => (some ∘ charOfCode) <$> hexDigits 2
  | some 'u' => some <$> unicodeEscape
  | some c => return some c

/--
Scan one character or escape of a string.
-/
def stringPart (quote : Char) (read : List Char) : Scan (ForInStep (List Char)) := do
  match ← bump with
  | none => fail .openString
  | some c =>
    if c = quote then
      return .done read.reverse
    else if c = '\\' then
      let c? ← escape
      return .yield (c?.toList ++ read)
    else if c = '\n' then
      fail .newline
    else
      return .yield (c :: read)

def stringBody (quote : Char) : Scan (List Char) :=
  call <| loop (stringPart quote) []

def number : Scan Value := do
  let start ← place
  let text ← row isNumberChar
  match number? text with
  | some value =>
    moveTo (start + Text.byteLength text)
    return value
  | none => fail (.number (.ofList text))

def word : Scan Value := do
  let name ← row isNameChar
  match wordValue? (.ofList name) with
  | some value =>
    advance (Text.byteLength name)
    return value
  | none => fail (.word (.ofList name))

/--
Go past a comma or past the end of an array. Any other character is given back.
-/
def separator (read : List Value) : Scan (ForInStep (List Value)) := do
  skipTrivia
  match ← bump with
  | some ',' => return .yield read
  | some ']' => return .done read.reverse
  | some c =>
    retreat c.utf8Size
    fail (.separator c)
  | none => fail .openArray

/--
Scan one item of an array with what separates it from the next one.
-/
def arrayPart (item : Scan Value) (read : List Value) : Scan (ForInStep (List Value)) := do
  skipTrivia
  if (← peek) = some ']' then
    advance 1
    return .done read.reverse
  else
    let value ← item
    separator (value :: read)

def items (item : Scan Value) : Scan (List Value) := do
  advance 1
  loop (arrayPart item) []

def array (item : Scan Value) : Scan Value :=
  call do
    if maxDepth ≤ (← depth) then
      fail .nesting
    else
      .array <$> nested (items item)

def value (item : Scan Value) : Scan Value :=
  call do
    match ← peek with
    | some c =>
      if c = '[' then
        array item
      else if c = '"' ∨ c = '\'' then
        advance 1
        (.string ∘ .ofList) <$> stringBody c
      else if c = '-' ∨ c.isDigit then
        number
      else if c.isAlpha then
        word
      else
        fail (.character c)
    | none => fail .endOfText

/--
The scanner for values where at most `levels` more arrays may be entered.
-/
def valueWithin : Nat → Scan Value
  | 0 => value (throw .stuck)
  | levels + 1 => value (valueWithin levels)

def skipSemicolon : Scan Unit := do
  if (← peek) = some ';' then
    advance 1
    skipTrivia
  else
    return ()

/--
Scan a text that holds a single value and otherwise only blanks, comments and at most one semicolon
behind the value.
-/
def literal : Scan Value := do
  skipTrivia
  let value ← valueWithin maxDepth
  skipTrivia
  skipSemicolon
  if (← place) < (← read).size then
    fail .trailing
  else
    return value

end SymbolSearch.Literal.Scan
