/-!
This module contains the length of a text in bytes, the unit in which places in a text are told.
-/

namespace SymbolSearch.Text

/--
The number of bytes that a text takes in UTF-8.
-/
def byteLength (s : List Char) : Nat :=
  s.foldr (fun c n => c.utf8Size + n) 0

@[simp]
theorem byteLength_nil : byteLength [] = 0 :=
  rfl

@[simp]
theorem byteLength_cons (c : Char) (s : List Char) :
    byteLength (c :: s) = c.utf8Size + byteLength s :=
  rfl

theorem byteLength_append (s t : List Char) : byteLength (s ++ t) = byteLength s + byteLength t := by
  unfold byteLength
  induction s with
  | nil => simp
  | cons c s ih =>
    rw [List.cons_append, List.foldr_cons, List.foldr_cons, ih]
    omega

end SymbolSearch.Text
