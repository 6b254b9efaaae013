import Mathlib.Data.List.DropRight
import SymbolSearch.Text.Blank

/-!
This module contains facts on blanks: which characters they are, what trimming leaves of a text, and
that squeezing a text does not depend on the blanks around it.
-/

namespace SymbolSearch.Text

def blankCodes : List Nat :=
  [
    0x9, 0xA, 0xB, 0xC, 0xD, 0x20, 0x85, 0xA0, 0x1680, 0x2000, 0x2001, 0x2002, 0x2003, 0x2004, 0x2005,
    0x2006, 0x2007, 0x2008, 0x2009, 0x200A, 0x2028, 0x2029, 0x202F, 0x205F, 0x3000
  ]

theorem toNat_mem_blankCodes {c : Char} (h : isBlank c) : c.toNat ∈ blankCodes := by
  simp only [isBlank, Bool.or_eq_true, Bool.and_eq_true, beq_iff_eq, decide_eq_true_eq] at h
  simp only [blankCodes, List.mem_cons, List.not_mem_nil, or_false]
  omega

theorem forall_of_isBlank {motive : Char → Prop} (h : ∀ n ∈ blankCodes, motive (Char.ofNat n))
    {c : Char} (hc : isBlank c) : motive c := by
  have hmotive := h c.toNat (toNat_mem_blankCodes hc)
  rw [Char.ofNat_toNat] at hmotive
  exact hmotive

theorem trim_eq_rdropWhile (s : List Char) : trim s = (trimStart s).rdropWhile isBlank :=
  rfl

@[simp]
theorem trimStart_eq_nil_iff {s : List Char} : trimStart s = [] ↔ ∀ c ∈ s, isBlank c := by
  unfold trimStart
  apply List.dropWhile_eq_nil_iff

theorem trimStart_cons_of_isBlank {c : Char} {s : List Char} (h : isBlank c) :
    trimStart (c :: s) = trimStart s := by
  unfold trimStart
  apply List.dropWhile_cons_of_pos h

theorem trimStart_cons_of_not_isBlank {c : Char} {s : List Char} (h : isBlank c = false) :
    trimStart (c :: s) = c :: s := by
  unfold trimStart
  apply List.dropWhile_cons_of_neg
  simp [h]

theorem not_isBlank_of_trimStart_eq_cons {s r : List Char} {c : Char} (h : trimStart s = c :: r) :
    isBlank c = false := by
  induction s with
  | nil => contradiction
  | cons d s ih =>
    cases hd : isBlank d with
    | true =>
      rw [trimStart_cons_of_isBlank hd] at h
      exact ih h
    | false =>
      rw [trimStart_cons_of_not_isBlank hd] at h
      cases h
      exact hd

@[simp]
theorem trim_eq_nil_iff {s : List Char} : trim s = [] ↔ ∀ c ∈ s, isBlank c := by
  rw [trim_eq_rdropWhile, List.rdropWhile_eq_nil_iff]
  constructor
  · intro h
    -- A text that is left when the blanks in front are gone starts with a character that is none.
    cases hs : trimStart s with
    | nil => apply trimStart_eq_nil_iff.mp hs
    | cons c r =>
      have hblank := h c (by simp [hs])
      rw [not_isBlank_of_trimStart_eq_cons hs] at hblank
      contradiction
  · intro h c hc
    rw [trimStart_eq_nil_iff.mpr h] at hc
    contradiction

theorem exists_blanks_around_trim (s : List Char) :
    ∃ front back : List Char, front.all isBlank ∧ back.all isBlank ∧ s = front ++ (trim s ++ back) := by
  refine ⟨s.takeWhile isBlank, (trimStart s).rtakeWhile isBlank, List.all_takeWhile, ?_, ?_⟩
  · apply List.all_eq_true.mpr
    intro c hc
    exact List.mem_rtakeWhile_imp hc
  · rw [trim_eq_rdropWhile, List.rdropWhile_append_rtakeWhile]
    exact List.takeWhile_append_dropWhile.symm

@[simp]
theorem trimStart_trim (s : List Char) : trimStart (trim s) = trim s := by
  cases ht : trim s with
  | nil => rfl
  | cons c r =>
    apply trimStart_cons_of_not_isBlank
    have hfront : c :: r <+: trimStart s := by
      rw [← ht, trim_eq_rdropWhile]
      apply List.rdropWhile_prefix
    obtain ⟨behind, hs⟩ := hfront
    apply not_isBlank_of_trimStart_eq_cons hs.symm

@[simp]
theorem trim_trim (s : List Char) : trim (trim s) = trim s := by
  rw [trim_eq_rdropWhile, trimStart_trim, trim_eq_rdropWhile, List.rdropWhile_idempotent]

theorem squeeze.go_append_of_isBlank {blanks : List Char} (h : ∀ c ∈ blanks, isBlank c) (owed : Bool)
    (s : List Char) : go owed (s ++ blanks) = go owed s := by
  induction s generalizing owed with
  | nil =>
    rw [List.nil_append]
    induction blanks generalizing owed with
    | nil => rfl
    | cons c blanks ih =>
      obtain ⟨hc, hblanks⟩ := List.forall_mem_cons.mp h
      simp only [go, hc, ↓reduceIte]
      exact ih hblanks true
  | cons c s ih =>
    rw [List.cons_append]
    simp only [go, ih]

@[simp]
theorem squeeze_trim (s : List Char) : squeeze (trim s) = squeeze s := by
  have hsplit : trim s ++ (trimStart s).rtakeWhile isBlank = trimStart s :=
    List.rdropWhile_append_rtakeWhile
  unfold squeeze
  rw [trimStart_trim]
  conv => rhs; rw [← hsplit]
  rw [squeeze.go_append_of_isBlank]
  intro c hc
  apply List.mem_rtakeWhile_imp hc

@[simp]
theorem squeeze_eq_nil_iff {s : List Char} : squeeze s = [] ↔ ∀ c ∈ s, isBlank c := by
  rw [← trimStart_eq_nil_iff]
  unfold squeeze
  cases hs : trimStart s with
  | nil => simp [squeeze.go]
  | cons c r => simp [squeeze.go, not_isBlank_of_trimStart_eq_cons hs]

theorem squeeze.go_prefix_append (owed : Bool) (s t : List Char) : go owed s <+: go owed (s ++ t) := by
  induction s generalizing owed with
  | nil => apply List.nil_prefix
  | cons c s ih =>
    rw [List.cons_append]
    simp only [go]
    split
    · apply ih true
    · split
      · simp only [List.cons_prefix_cons, true_and]
        apply ih false
      · simp only [List.cons_prefix_cons, true_and]
        apply ih false

theorem squeeze_prefix_append (s t : List Char) : squeeze s <+: squeeze (s ++ t) := by
  unfold squeeze trimStart
  rw [List.dropWhile_append]
  split
  · next hblank =>
    rw [List.isEmpty_iff] at hblank
    rw [hblank]
    apply List.nil_prefix
  · apply squeeze.go_prefix_append

@[simp]
theorem trimmed_eq_empty_iff {s : String} : trimmed s = "" ↔ ∀ c ∈ s.toList, isBlank c := by
  unfold trimmed
  rw [String.ofList_eq_empty_iff, trim_eq_nil_iff]

end SymbolSearch.Text
