import SymbolSearch.Literal.Reader
import SymbolSearch.Extraction.Shape
import SymbolSearch.Text.WordChar

/-!
This module contains the reading of a payload: the text of a script that assigns one literal to a
variable, or a text that is just the literal.
-/

namespace SymbolSearch

open Literal (Cause Value)

/--
Why nothing could be extracted from a payload.
-/
inductive PayloadError
  /-- The payload holds no literal; `offset` is the place in bytes at which that was noticed. -/
  | fault (offset : Nat) (cause : Cause)
  /-- The literal does not have the shape of an index. -/
  | misshape (record : Nat) (defect : Misshape)
  deriving Repr, DecidableEq

def PayloadError.message : PayloadError → String
  | fault offset cause => "syntax error at byte " ++ toString offset ++ ": " ++ cause.message
  | misshape record defect =>
    "unexpected index shape at record " ++ toString record ++ ": " ++ defect.message

namespace Payload

/--
The text behind the byte order mark that a payload may start with.
-/
def unmarked : List Char → List Char
  | '\uFEFF' :: r => r
  | s => s

/--
The text behind one of the words that start a declaration.
-/
def afterKeyword? : List Char → Option (List Char)
  | 'v' :: 'a' :: 'r' :: r => some r
  | 'l' :: 'e' :: 't' :: r => some r
  | 'c' :: 'o' :: 'n' :: 's' :: 't' :: r => some r
  | _ => none

/--
The text behind blanks, of which there has to be at least one.
-/
def afterBlanks? : List Char → Option (List Char)
  | [] => none
  | c :: r => if Text.isBlank c then some (Text.trimStart r) else none

/--
The text behind a variable's name. The first character is an ASCII letter, `_` or `$`, all others
are word characters or `$`.
-/
def afterName? : List Char → Option (List Char)
  | [] => none
  | c :: r =>
    if c.isAlpha || c == '_' || c == '$' then
      some (r.dropWhile fun c => Text.isWordChar c || c == '$')
    else
      none

/--
The text behind a declaration up to its equals sign, with blanks allowed wherever two of its parts
meet.
-/
def afterAssignment? (s : List Char) : Option (List Char) := do
  let behind ← afterKeyword? (Text.trimStart s)
  let name ← afterBlanks? behind
  let behind ← afterName? name
  match Text.trimStart behind with
  | '=' :: r => some r
  | _ => none

/--
The text of the literal in a payload that does not start with a byte order mark.
-/
def literalText (text : List Char) : List Char :=
  (afterAssignment? text).getD text

/--
The value of the literal in a payload. Places in the payload are counted from behind the byte order
mark.
-/
def value (payload : String) : Except PayloadError Value :=
  let text := unmarked payload.toList
  (Literal.readLiteral (literalText text)).mapError fun fault =>
    .fault (fault.offset text) fault.cause

end Payload

def Extraction.ofPayload (payload : String) : Except PayloadError Extraction := do
  let value ← Payload.value payload
  (ofValue value).mapError fun (record, defect) => .misshape record defect

/--
Extract what payloads hold and put it together in their order.
-/
def Extraction.ofPayloads (payloads : List String) : Except PayloadError Extraction := do
  let parts ← payloads.mapM ofPayload
  return parts.foldl (· ++ ·) {}

end SymbolSearch
