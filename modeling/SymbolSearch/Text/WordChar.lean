import SymbolSearch.Text.WordChar.Table

/-!
This module contains the test for word characters.
-/

namespace SymbolSearch.Text

/--
Whether a character may stand inside a word. Since the table ascends only the first range that does
not end before the character can hold it.
-/
def isWordChar (c : Char) : Bool :=
  match wordRanges.find? (c.toNat ≤ ·.2) with
  | none => false
  | some (first, _) => first ≤ c.toNat

end SymbolSearch.Text
