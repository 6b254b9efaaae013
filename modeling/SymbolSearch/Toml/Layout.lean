/-!
This module contains what stands between the parts of a document: blanks, line breaks and comments.
-/

namespace SymbolSearch.Toml

/--
The blanks inside a line.
-/
def isBlank (c : Char) : Bool :=
  c == ' ' || c == '\t'

/--
The characters that strings and comments may hold: everything but control characters other than the
tabulator.
-/
def isPrintable (c : Char) : Bool :=
  c == '\t' || (0x20 ≤ c.toNat && c.toNat != 0x7F)

def skipBlanks (s : List Char) : List Char :=
  s.dropWhile isBlank

/--
The text behind a line break, of which there are two spellings.
-/
def afterNewline? : List Char → Option (List Char)
  | '\n' :: r => some r
  | '\r' :: '\n' :: r => some r
  | _ => none

/--
Skip a comment. It ends in front of a line break or of a character that it may not hold.
-/
def skipComment : List Char → List Char
  | '#' :: r => r.dropWhile isPrintable
  | s => s

def skipLayout (s : List Char) : List Char :=
  match s with
  | [] => []
  | '\n' :: r => skipLayout r
  | '\r' :: '\n' :: r => skipLayout r
  | '#' :: r => skipLayout (r.dropWhile isPrintable)
  | c :: r => if isBlank c then skipLayout r else c :: r
termination_by s.length
decreasing_by
  · exact Nat.lt_succ_self _
  · exact Nat.lt_add_right 1 (Nat.lt_succ_self _)
  · exact Nat.lt_succ_of_le (List.dropWhile_suffix _).length_le
  · exact Nat.lt_succ_self _

/--
The text behind the end of a line. Only blanks and a comment may stand in front of it. The text as a
whole ends a line too.
-/
def afterLine? (s : List Char) : Option (List Char) :=
  match skipComment (skipBlanks s) with
  | [] => some []
  | s => afterNewline? s

theorem skipBlanks_length_le (s : List Char) : (skipBlanks s).length ≤ s.length :=
  (List.dropWhile_suffix _).length_le

theorem afterNewline?_length_lt {s r : List Char} (h : afterNewline? s = some r) :
    r.length < s.length := by
  unfold afterNewline? at h
  split at h
  · cases h
    exact Nat.lt_succ_self _
  · cases h
    exact Nat.lt_add_right 1 (Nat.lt_succ_self _)
  · contradiction

theorem skipComment_length_le (s : List Char) : (skipComment s).length ≤ s.length := by
  unfold skipComment
  split
  · exact Nat.le_succ_of_le (List.dropWhile_suffix _).length_le
  · exact Nat.le_refl _

theorem skipLayout_length_le (s : List Char) : (skipLayout s).length ≤ s.length := by
  fun_induction skipLayout s with
  | case1 => exact Nat.le_refl _
  | case2 r ih => exact Nat.le_succ_of_le ih
  | case3 r ih => exact Nat.le_succ_of_le (Nat.le_succ_of_le ih)
  | case4 r ih => exact Nat.le_succ_of_le (Nat.le_trans ih (List.dropWhile_suffix _).length_le)
  | case5 c r _ _ _ _ ih => exact Nat.le_succ_of_le ih
  | case6 => exact Nat.le_refl _

theorem afterLine?_length_le {s r : List Char} (h : afterLine? s = some r) :
    r.length ≤ s.length := by
  have hcomment := skipComment_length_le (skipBlanks s)
  have hblanks := skipBlanks_length_le s
  unfold afterLine? at h
  split at h
  · cases h
    exact Nat.zero_le _
  · have := afterNewline?_length_lt h
    omega

end SymbolSearch.Toml
