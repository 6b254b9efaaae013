import SymbolSearch.Text.LowerCase.Table

/-!
This module contains lower-casing by Unicode's full mapping, one character at a time and without
regard to its neighbours.
-/

namespace SymbolSearch.Text

/--
The lower case form of a character number, if that is one character; the number itself if the
character has none. Since the table ascends only the first range that does not end before the number
can hold it.
-/
def lowerCode (n : Nat) : Nat :=
  match caseRanges.find? (n ≤ ·.last) with
  | none => n
  | some range =>
    if range.first ≤ n ∧ (n - range.first) % range.stride = 0 then
      range.image + (n - range.first)
    else
      n

/--
The lower case form of a character. The dotted capital `I` is the only one whose form has two
characters: the letter `i` and a combining dot above.
-/
def lower (c : Char) : List Char :=
  if c = '\u0130' then
    ['i', '\u0307']
  else
    [Char.ofNat (lowerCode c.toNat)]

end SymbolSearch.Text
