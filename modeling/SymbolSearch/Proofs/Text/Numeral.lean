import Mathlib.Data.List.Basic
import Mathlib.Tactic.Ring
import SymbolSearch.Text.Numeral

/-!
This module contains the size of the number that a row of decimal digits writes.
-/

namespace SymbolSearch.Text

theorem foldl_digits (base n : Nat) (s : List Char) :
    s.foldl (fun n c => n * base + (digitValue? c).getD 0) n = n * base ^ s.length + numeral base s := by
  unfold numeral
  induction s generalizing n with
  | nil => simp
  | cons c s ih =>
    rw [List.foldl_cons, List.foldl_cons, ih, ih (0 * base + _), List.length_cons, Nat.pow_succ]
    ring

theorem numeral_cons (base : Nat) (c : Char) (s : List Char) :
    numeral base (c :: s) = (digitValue? c).getD 0 * base ^ s.length + numeral base s := by
  rw [numeral, List.foldl_cons, foldl_digits, Nat.zero_mul, Nat.zero_add]

theorem toNat_of_isDigit {c : Char} (h : c.isDigit) : 48 ≤ c.toNat ∧ c.toNat ≤ 57 := by
  simp only [Char.isDigit, Bool.and_eq_true, decide_eq_true_eq] at h
  exact h

theorem digitValue?_of_isDigit {c : Char} (h : c.isDigit) : digitValue? c = some (c.toNat - 48) := by
  have := toNat_of_isDigit h
  unfold digitValue?
  rw [if_pos]
  · rfl
  · exact this

theorem numeral_lt_pow {s : List Char} (h : s.all Char.isDigit) : numeral 10 s < 10 ^ s.length := by
  induction s with
  | nil => decide
  | cons c s ih =>
    rw [List.all_cons, Bool.and_eq_true] at h
    have hdigit := toNat_of_isDigit h.1
    have hs := ih h.2
    rw [numeral_cons, digitValue?_of_isDigit h.1, Option.getD_some, List.length_cons, Nat.pow_succ]
    have hc : (c.toNat - 48) * 10 ^ s.length ≤ 9 * 10 ^ s.length :=
      Nat.mul_le_mul_right _ (by omega)
    omega

theorem pow_le_numeral_cons {c : Char} (h : c.isDigit) (hc : c ≠ '0') (s : List Char) :
    10 ^ s.length ≤ numeral 10 (c :: s) := by
  have hdigit := toNat_of_isDigit h
  have hne : c.toNat ≠ 48 := by
    intro heq
    apply hc
    apply Char.toNat_inj.mp heq
  rw [numeral_cons, digitValue?_of_isDigit h, Option.getD_some]
  have := Nat.mul_le_mul_right (10 ^ s.length) (show 1 ≤ c.toNat - 48 by omega)
  omega

theorem numeral_dropWhile_zero (s : List Char) :
    numeral 10 (s.dropWhile (· == '0')) = numeral 10 s := by
  induction s with
  | nil => rfl
  | cons c s ih =>
    by_cases hc : c = '0'
    · subst hc
      rw [List.dropWhile_cons_of_pos (by decide), ih, numeral_cons]
      simp [digitValue?]
    · rw [List.dropWhile_cons_of_neg (by simpa using hc)]

theorem all_isDigit_toDigits (n : Nat) : (Nat.toDigits 10 n).all Char.isDigit := by
  rw [List.all_eq_true]
  intro c hc
  exact Nat.isDigit_of_mem_toDigits (by decide) (by decide) hc

theorem numeral_toDigits (n : Nat) : numeral 10 (Nat.toDigits 10 n) = n := by
  have hdigits : numeral 10 (Nat.toDigits 10 n) = Nat.ofDigitChars 10 (Nat.toDigits 10 n) 0 := by
    rw [Nat.ofDigitChars_eq_foldl]
    apply List.foldl_ext
    intro m c hc
    have hdigit := List.all_eq_true.mp (all_isDigit_toDigits n) c hc
    rw [digitValue?_of_isDigit hdigit, Option.getD_some, Nat.mul_comm]
    rfl
  rw [hdigits, Nat.ofDigitChars_ten_toDigits]

theorem eq_zero_of_head?_toDigits {n : Nat} (h : (Nat.toDigits 10 n).head? = some '0') : n = 0 := by
  induction n using Nat.strongRecOn with
  | ind n ih =>
    by_cases hn : n < 10
    · rw [Nat.toDigits_of_lt_base hn] at h
      exact Nat.digitChar_eq_zero.mp (Option.some.inj h)
    · rw [Nat.toDigits_of_base_le (by decide) (Nat.le_of_not_lt hn),
        List.head?_append_of_ne_nil _ Nat.toDigits_ne_nil] at h
      have := ih (n / 10) (by omega) h
      omega

end SymbolSearch.Text
