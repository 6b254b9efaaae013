import SymbolSearch.Literal.Fault
import SymbolSearch.Text.Blank

/-!
This module contains the reading of what stands between the parts of a literal and means nothing:
blanks, comments up to the end of the line and comments between `/*` and `*/`.
-/

namespace SymbolSearch.Literal

/--
The text behind the first `*/`.
-/
def closeComment? : List Char → Option (List Char)
  | '*' :: '/' :: r => some r
  | _ :: r => closeComment? r
  | [] => none

theorem closeComment?_length_lt {s r : List Char} (h : closeComment? s = some r) :
    r.length < s.length := by
  fun_induction closeComment? s with
  | case1 =>
    cases h
    exact Nat.lt_add_right 1 (Nat.lt_succ_self _)
  | case2 c s hs ih => exact Nat.lt_succ_of_lt (ih h)
  | case3 => contradiction

/--
Skip blanks and comments. The line break that ends a comment is a blank itself.
-/
def skipTrivia (s : List Char) : Except Fault (List Char) :=
  match s with
  | [] => .ok []
  | '/' :: '/' :: r => skipTrivia (r.dropWhile (· != '\n'))
  | '/' :: '*' :: r =>
    match _h : closeComment? r with
    | none => .error ⟨.openComment, s⟩
    | some r => skipTrivia r
  | c :: r => if Text.isBlank c then skipTrivia r else .ok s
termination_by s.length
decreasing_by
  · exact Nat.lt_add_right 1 (Nat.lt_succ_of_le (List.dropWhile_suffix _).length_le)
  · exact Nat.lt_add_right 2 (closeComment?_length_lt _h)
  · exact Nat.lt_succ_self _

theorem skipTrivia_length_le {s r : List Char} (h : skipTrivia s = .ok r) :
    r.length ≤ s.length := by
  fun_induction skipTrivia s with
  | case1 =>
    cases h
    exact Nat.le_refl _
  | case2 s ih =>
    have hdrop : (s.dropWhile (· != '\n')).length ≤ s.length := (List.dropWhile_suffix _).length_le
    have := ih h
    rw [List.length_cons, List.length_cons]
    omega
  | case3 => contradiction
  | case4 s t hclose ih =>
    have := closeComment?_length_lt hclose
    have := ih h
    rw [List.length_cons, List.length_cons]
    omega
  | case5 c s _ _ _ ih => exact Nat.le_succ_of_le (ih h)
  | case6 =>
    cases h
    exact Nat.le_refl _

end SymbolSearch.Literal
