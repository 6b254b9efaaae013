import SymbolSearch.Text.Bytes

/-!
This module contains the parts of a text between places that are counted in bytes, and the search for
such places.
-/

namespace SymbolSearch.Text

/--
Whether a place lies in a text, at one of its ends or between two of its characters.
-/
def IsBoundary (text : List Char) (place : Nat) : Prop :=
  String.Pos.Raw.IsValid (.ofList text) ⟨place⟩

/--
The first bytes of a text and the text behind them. The bytes have to be there and may not end inside
a character.
-/
def splitBytes? : Nat → List Char → Option (List Char × List Char)
  | 0, s => some ([], s)
  | _ + 1, [] => none
  | n + 1, c :: s =>
    if c.utf8Size ≤ n + 1 then
      (splitBytes? (n + 1 - c.utf8Size) s).map fun (front, r) => (c :: front, r)
    else
      none

/--
The part of a text from one place to another one that is not in front of it. There is none if a place
lies outside the text or inside a character.
-/
def slice? (text : List Char) (start stop : Nat) : Option (List Char) :=
  if start ≤ stop then
    ((splitBytes? start text).bind fun split => splitBytes? (stop - start) split.2).map Prod.fst
  else
    none

/--
The place of the first character of a class.
-/
def find? (p : Char → Bool) : List Char → Option Nat
  | [] => none
  | c :: s => if p c then some 0 else (find? p s).map (c.utf8Size + ·)

/--
The place at which a text first occurs in another one.
-/
def findText? (pattern : List Char) : List Char → Option Nat
  | [] => if pattern.isEmpty then some 0 else none
  | c :: s =>
    if pattern.isPrefixOf (c :: s) then some 0 else (findText? pattern s).map (c.utf8Size + ·)

end SymbolSearch.Text
