/-!
This module contains the blank characters and the two operations on text that rest on them: `trim`
removes the blanks at both ends, `squeeze` also turns each run of blanks inside into one space.
-/

namespace SymbolSearch.Text

/--
The characters with the Unicode property `White_Space`. A zero width space and a byte order mark are
not among them.
-/
def isBlank (c : Char) : Bool :=
  let n := c.toNat
  n == 0x20 || (0x9 ≤ n && n ≤ 0xD) || n == 0x85 || n == 0xA0 || n == 0x1680 ||
    (0x2000 ≤ n && n ≤ 0x200A) || n == 0x2028 || n == 0x2029 || n == 0x202F || n == 0x205F ||
    n == 0x3000

def trimStart (s : List Char) : List Char :=
  s.dropWhile isBlank

def trim (s : List Char) : List Char :=
  (trimStart (trimStart s).reverse).reverse

def trimmed (s : String) : String :=
  .ofList (trim s.toList)

/--
Remove the blanks at both ends and put one space for each run of blanks between two words.
-/
def squeeze (s : List Char) : List Char :=
  go false (trimStart s)
where
  /-- The flag tells whether a blank was read since the last word character. -/
  go : Bool → List Char → List Char
    | _, [] => []
    | owed, c :: r =>
      if isBlank c then
        go true r
      else if owed then
        ' ' :: c :: go false r
      else
        c :: go false r

end SymbolSearch.Text
