import SymbolSearch.Proofs.Key
import SymbolSearch.Proofs.Text.LowerCase

/-!
This module contains the form that keys have: words in lower case with one space between them. A text
has this form exactly if it is its own key.
-/

namespace SymbolSearch

open Text

/--
The form of a key. There are no blanks at its ends, and those inside are single spaces; every
character is its own lower case form.
-/
structure IsNormal (text : String) : Prop where
  head?_ne : text.toList.head? ≠ some ' '
  getLast?_ne : text.toList.getLast? ≠ some ' '
  not_double : ¬[' ', ' '] <:+: text.toList
  eq_space_of_isBlank : ∀ c ∈ text.toList, isBlank c → c = ' '
  lower_eq : ∀ c ∈ text.toList, lower c = [c]

namespace Text

/--
Words without blanks, at least one, and a space between each two.
-/
inductive Squeezed : List Char → Prop
  | last {c : Char} (hc : isBlank c = false) : Squeezed [c]
  | cons {c : Char} {s : List Char} (hc : isBlank c = false) (hs : Squeezed s) : Squeezed (c :: s)
  | space {c : Char} {s : List Char} (hc : isBlank c = false) (hs : Squeezed s) :
      Squeezed (c :: ' ' :: s)

theorem ne_space_of_not_isBlank {c : Char} (h : isBlank c = false) : c ≠ ' ' := by
  rintro rfl
  contradiction

theorem squeezed_cons_go {c : Char} (hc : isBlank c = false) (owed : Bool) (s : List Char) :
    Squeezed (c :: squeeze.go owed s) := by
  induction s generalizing c owed with
  | nil => apply Squeezed.last hc
  | cons d s ih =>
    unfold squeeze.go
    split
    · apply ih hc
    · next hd =>
      rw [Bool.not_eq_true] at hd
      split
      · apply Squeezed.space hc (ih hd false)
      · apply Squeezed.cons hc (ih hd false)

theorem squeezed_squeeze {s : List Char} (h : squeeze s ≠ []) : Squeezed (squeeze s) := by
  unfold squeeze at *
  cases hs : trimStart s with
  | nil =>
    rw [hs] at h
    contradiction
  | cons c r =>
    have hc := not_isBlank_of_trimStart_eq_cons hs
    simp only [squeeze.go, hc, Bool.false_eq_true, ↓reduceIte]
    apply squeezed_cons_go hc

namespace Squeezed

theorem row_append {t : List Char} (ht : ∀ c, isBlank c = false → Squeezed (c :: t))
    {row : List Char} (hne : row ≠ []) (hrow : ∀ c ∈ row, isBlank c = false) :
    Squeezed (row ++ t) := by
  induction row with
  | nil => contradiction
  | cons c row ih =>
    obtain ⟨hc, hrow⟩ := List.forall_mem_cons.mp hrow
    cases row with
    | nil => apply ht c hc
    | cons d row => apply cons hc (ih (List.cons_ne_nil d row) hrow)

theorem flatMap_lower {s : List Char} (h : Squeezed s) : Squeezed (s.flatMap lower) := by
  have hform {c : Char} (hc : isBlank c = false) : ∀ d ∈ lower c, isBlank d = false := by
    intro d hd
    apply not_isBlank_of_mem_lower hc hd
  induction h with
  | @last c hc =>
    apply row_append _ (lower_ne_nil c) (hform hc)
    intro d hd
    apply last hd
  | @cons c s hc _ ih =>
    apply row_append _ (lower_ne_nil c) (hform hc)
    intro d hd
    apply cons hd ih
  | @space c s hc _ ih =>
    apply row_append _ (lower_ne_nil c) (hform hc)
    intro d hd
    apply space hd ih

variable {s : List Char} (h : Squeezed s)

include h

theorem exists_cons : ∃ c r, s = c :: r ∧ isBlank c = false := by
  cases h with
  | last hc => exact ⟨_, _, rfl, hc⟩
  | cons hc => exact ⟨_, _, rfl, hc⟩
  | space hc => exact ⟨_, _, rfl, hc⟩

theorem exists_concat : ∃ front c, s = front ++ [c] ∧ isBlank c = false := by
  induction h with
  | @last c hc => exact ⟨[], c, rfl, hc⟩
  | @cons c _ _ _ ih =>
    obtain ⟨front, d, rfl, hd⟩ := ih
    exact ⟨c :: front, d, rfl, hd⟩
  | @space c _ _ _ ih =>
    obtain ⟨front, d, rfl, hd⟩ := ih
    exact ⟨c :: ' ' :: front, d, rfl, hd⟩

theorem eq_space_of_isBlank : ∀ c ∈ s, isBlank c → c = ' ' := by
  induction h with
  | last hc => simp [hc]
  | cons hc _ ih => simpa [hc] using ih
  | space hc _ ih => simpa [hc] using ih

theorem not_double : ¬[' ', ' '] <:+: s := by
  have hne {c : Char} (hc : isBlank c = false) : ' ' ≠ c := (ne_space_of_not_isBlank hc).symm
  induction h with
  | last hc => simp [List.infix_cons_iff]
  | cons hc _ ih => simp [List.infix_cons_iff, hne hc, ih]
  | space hc hs ih =>
    obtain ⟨d, r, rfl, hd⟩ := hs.exists_cons
    simp [List.infix_cons_iff, hne hc, hne hd] at ih ⊢
    exact ih

end Squeezed

/-- Nothing is left to squeeze in a text whose blanks are single spaces in front of other characters. -/
theorem squeeze.go_eq_self {s : List Char} (hlast : s.getLast? ≠ some ' ')
    (hdouble : ¬[' ', ' '] <:+: s) (hspace : ∀ c ∈ s, isBlank c → c = ' ') : go false s = s := by
  induction s with
  | nil => rfl
  | cons c s ih =>
    obtain ⟨hc, hbehind⟩ := List.forall_mem_cons.mp hspace
    have hs : go false s = s := by
      apply ih _ _ hbehind
      · intro heq
        apply hlast
        rw [List.getLast?_cons, heq, Option.getD_some]
      · intro hin
        apply hdouble (hin.trans (List.suffix_cons c s).isInfix)
    cases hblank : isBlank c with
    | false => simp [go, hblank, hs]
    | true =>
      obtain rfl := hc hblank
      cases s with
      | nil => exact absurd rfl hlast
      | cons d r =>
        have hd : isBlank d = false := by
          rw [Bool.eq_false_iff]
          intro hd
          obtain rfl := hbehind d (List.mem_cons_self ..) hd
          apply hdouble ⟨[], r, rfl⟩
        simp only [go, hd, Bool.false_eq_true, ↓reduceIte] at hs ⊢
        simp [hblank, hs]

end Text

theorem isNormal_key (text : String) : IsNormal (key text) := by
  have hlower : ∀ c ∈ (key text).toList, lower c = [c] := by
    intro c hc
    rw [key, String.toList_ofList] at hc
    obtain ⟨d, -, hd⟩ := List.mem_flatMap.mp hc
    apply lower_of_mem_lower hd
  by_cases hempty : squeeze text.toList = []
  · have hkey : (key text).toList = [] := by
      simp [key, hempty]
    constructor <;> simp [hkey]
  · have hsqueezed : Squeezed (key text).toList := by
      rw [key, String.toList_ofList]
      apply (squeezed_squeeze hempty).flatMap_lower
    constructor
    case head?_ne =>
      obtain ⟨c, r, heq, hc⟩ := hsqueezed.exists_cons
      rw [heq, List.head?_cons, Ne, Option.some.injEq]
      apply ne_space_of_not_isBlank hc
    case getLast?_ne =>
      obtain ⟨front, c, heq, hc⟩ := hsqueezed.exists_concat
      rw [heq, List.getLast?_concat, Ne, Option.some.injEq]
      apply ne_space_of_not_isBlank hc
    case not_double => apply hsqueezed.not_double
    case eq_space_of_isBlank => apply hsqueezed.eq_space_of_isBlank
    case lower_eq => exact hlower

theorem key_of_isNormal {text : String} (h : IsNormal text) : key text = text := by
  have htrim : trimStart text.toList = text.toList := by
    cases hs : text.toList with
    | nil => rfl
    | cons c r =>
      apply trimStart_cons_of_not_isBlank
      rw [Bool.eq_false_iff]
      intro hblank
      obtain rfl := h.eq_space_of_isBlank c (by simp [hs]) hblank
      apply h.head?_ne (by simp [hs])
  have hsqueeze : squeeze text.toList = text.toList := by
    rw [squeeze, htrim]
    apply squeeze.go_eq_self h.getLast?_ne h.not_double h.eq_space_of_isBlank
  have hlower : text.toList.flatMap lower = text.toList.flatMap ([·]) := by
    apply List.flatMap_congr h.lower_eq
  rw [key, hsqueeze, hlower, List.flatMap_singleton', String.ofList_toList]

theorem key_eq_self_iff {text : String} : key text = text ↔ IsNormal text := by
  constructor
  · intro h
    rw [← h]
    apply isNormal_key
  · apply key_of_isNormal

@[simp]
theorem key_key (text : String) : key (key text) = key text :=
  key_of_isNormal (isNormal_key text)

end SymbolSearch
