import Mathlib.Data.List.DropRight
import Mathlib.Data.List.Infix

/-!
This module contains facts on where a text occurs in another one, and up to where one goes, when there
are characters of another class around it.
-/

namespace SymbolSearch.Text

variable {α : Type} {part s t : List α}

theorem prefix_append_iff (h : ∀ a ∈ t.head?, a ∉ part) : part <+: s ++ t ↔ part <+: s := by
  constructor
  · intro hpart
    rcases List.prefix_or_prefix_of_prefix hpart (List.prefix_append s t) with hs | ⟨r, rfl⟩
    · exact hs
    · rw [List.prefix_append_right_inj] at hpart
      cases r with
      | nil => rw [List.append_nil]
      | cons a r =>
        obtain ⟨t, rfl⟩ := hpart
        exact absurd (List.mem_append_right s (List.mem_cons_self ..)) (h a rfl)
  · intro hpart
    exact hpart.trans (List.prefix_append s t)

theorem infix_append_iff (hne : part ≠ []) (h : ∀ a ∈ t, a ∉ part) :
    part <:+: s ++ t ↔ part <:+: s := by
  constructor
  · intro hpart
    rcases List.infix_append_iff.mp hpart with hs | ht | ⟨front, back, rfl, hfront, hback⟩
    · exact hs
    · obtain ⟨a, ha⟩ := List.exists_mem_of_ne_nil part hne
      exact absurd ha (h a (ht.subset ha))
    · have hnil : back = [] := by
        apply List.eq_nil_iff_forall_not_mem.mpr
        intro a ha
        exact h a (hback.subset ha) (List.mem_append_right front ha)
      rw [hnil, List.append_nil]
      exact hfront.isInfix
  · intro hpart
    exact hpart.trans (List.prefix_append s t).isInfix

theorem infix_append_iff_of_front (hne : part ≠ []) (h : ∀ a ∈ s, a ∉ part) :
    part <:+: s ++ t ↔ part <:+: t := by
  rw [← List.reverse_infix, List.reverse_append, infix_append_iff, List.reverse_infix]
  · simpa using hne
  · intro a ha hpart
    exact h a (List.mem_reverse.mp ha) (List.mem_reverse.mp hpart)

theorem takeWhile_ne_append [DecidableEq α] (a : α) (s t : List α) :
    (s ++ t).takeWhile (· != a) =
      if a ∈ s then s.takeWhile (· != a) else s ++ t.takeWhile (· != a) := by
  induction s with
  | nil => simp
  | cons b s ih =>
    by_cases hb : b = a
    · simp [hb]
    · simp [hb, Ne.symm hb, ih, apply_ite (List.cons b)]

theorem takeWhile_ne_of_not_mem [DecidableEq α] {a : α} {s : List α} (h : a ∉ s) :
    s.takeWhile (· != a) = s := by
  have hwhole := takeWhile_ne_append a s []
  rw [if_neg h, List.takeWhile_nil, List.append_nil] at hwhole
  exact hwhole

theorem dropWhile_ne_append [DecidableEq α] (a : α) (s t : List α) :
    (s ++ t).dropWhile (· != a) =
      if a ∈ s then s.dropWhile (· != a) ++ t else t.dropWhile (· != a) := by
  induction s with
  | nil => simp
  | cons b s ih =>
    by_cases hb : b = a
    · simp [hb]
    · simp [hb, Ne.symm hb, ih]

theorem dropWhile_ne_eq_nil_iff [DecidableEq α] {a : α} {s : List α} :
    s.dropWhile (· != a) = [] ↔ a ∉ s := by
  rw [List.dropWhile_eq_nil_iff]
  constructor
  · intro h ha
    simpa using h a ha
  · rintro h b hb
    simpa using fun heq : b = a => h (heq ▸ hb)

section Padding

variable {p : α → Bool} {front back : List α} (hfront : front.all p) (hback : back.all p)

theorem not_mem_of_all (h : s.all p) (hpart : part.any p = false) : ∀ a ∈ s, a ∉ part := by
  intro a ha hmem
  exact List.any_eq_false.mp hpart a hmem (List.all_eq_true.mp h a ha)

include hfront hback

theorem prefix_padded_iff (hne : part ≠ []) (hpart : part.any p = false) :
    part <+: front ++ (s ++ back) ↔ front = [] ∧ part <+: s := by
  cases front with
  | nil =>
    rw [List.nil_append, prefix_append_iff]
    · simp
    · intro a ha
      exact not_mem_of_all hback hpart a (List.mem_of_mem_head? ha)
  | cons b front =>
    have hb := not_mem_of_all hfront hpart b (List.mem_cons_self ..)
    obtain ⟨a, part, rfl⟩ := List.exists_cons_of_ne_nil hne
    simp only [List.cons_append, List.cons_prefix_cons, reduceCtorEq, false_and, iff_false]
    rintro ⟨rfl, -⟩
    exact hb (List.mem_cons_self ..)

theorem suffix_padded_iff (hne : part ≠ []) (hpart : part.any p = false) :
    part <:+ front ++ (s ++ back) ↔ back = [] ∧ part <:+ s := by
  have hreversed : part.reverse <+: back.reverse ++ (s.reverse ++ front.reverse) ↔
      back.reverse = [] ∧ part.reverse <+: s.reverse :=
    prefix_padded_iff (p := p) (by simpa using hback) (by simpa using hfront) (by simpa using hne)
      (by simpa using hpart)
  rw [← List.reverse_prefix]
  simpa using hreversed

theorem infix_padded_iff (hne : part ≠ []) (hpart : part.any p = false) :
    part <:+: front ++ (s ++ back) ↔ part <:+: s := by
  rw [infix_append_iff_of_front hne (not_mem_of_all hfront hpart),
    infix_append_iff hne (not_mem_of_all hback hpart)]

end Padding

end SymbolSearch.Text
