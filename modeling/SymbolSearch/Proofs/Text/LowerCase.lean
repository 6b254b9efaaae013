import SymbolSearch.Proofs.Text.Blank
import SymbolSearch.Text.LowerCase

/-!
This module contains the proof that lower-casing is done after one pass: the characters of a lower
case form are their own lower case form, and none of them is a blank unless the character was one.
-/

namespace SymbolSearch.Text

namespace CaseRange

def lastImage (range : CaseRange) : Nat :=
  range.image + (range.last - range.first)

def Holds (range : CaseRange) (n : Nat) : Prop :=
  range.first ≤ n ∧ n ≤ range.last ∧ (n - range.first) % range.stride = 0

/--
Whether no lower case form from one range lies in another. Where upper and lower case alternate the
two have the even and the odd numbers, or the other way round.
-/
def misses (range other : CaseRange) : Bool :=
  range.lastImage.blt other.first || other.last.blt range.image ||
    (other.stride == 2 && (range.stride == 2 || range.first == range.last) &&
      range.image % 2 != other.first % 2)

theorem not_holds_of_misses {range other : CaseRange} (h : range.misses other) {n : Nat}
    (hn : range.Holds n) : ¬other.Holds (range.image + (n - range.first)) := by
  obtain ⟨hfirst, hlast, hstride⟩ := hn
  rintro ⟨hfirst', hlast', hstride'⟩
  simp only [misses, lastImage, Bool.or_eq_true, Bool.and_eq_true, Nat.blt_eq, beq_iff_eq,
    bne_iff_ne] at h
  rcases h with (hbelow | habove) | ⟨⟨htwo', htwo | hsingle⟩, hparity⟩
  · omega
  · omega
  · rw [htwo] at hstride
    rw [htwo'] at hstride'
    omega
  · rw [htwo'] at hstride'
    omega

end CaseRange

theorem misses_of_mem_caseRanges {range other : CaseRange} (h : range ∈ caseRanges)
    (hother : other ∈ caseRanges) : range.misses other := by
  have hall : (caseRanges.all fun range => caseRanges.all range.misses) = true := by
    decide +kernel
  apply List.all_eq_true.mp (List.all_eq_true.mp hall range h) other hother

theorem image_of_mem_caseRanges : ∀ range ∈ caseRanges,
    range.lastImage < 0x110000 ∧ (range.lastImage < 0xD800 ∨ 0xDFFF < range.image) ∧
      ∀ n ∈ 0x130 :: blankCodes, n < range.image ∨ range.lastImage < n := by
  decide +kernel

theorem lowerCode_cases (n : Nat) :
    lowerCode n = n ∨
      ∃ range ∈ caseRanges, range.Holds n ∧ lowerCode n = range.image + (n - range.first) := by
  unfold lowerCode
  split
  · left
    rfl
  · next range hfind =>
    split
    · next hholds =>
      right
      have hlast : n ≤ range.last := by simpa using List.find?_some hfind
      refine ⟨range, List.mem_of_find?_eq_some hfind, ⟨hholds.1, hlast, hholds.2⟩, rfl⟩
    · left
      rfl

theorem lowerCode_lowerCode (n : Nat) : lowerCode (lowerCode n) = lowerCode n := by
  rcases lowerCode_cases n with heq | ⟨range, hrange, hholds, heq⟩
  · rw [heq, heq]
  · rw [heq]
    rcases lowerCode_cases (range.image + (n - range.first)) with hfixed | ⟨other, hother, hheld, -⟩
    · apply hfixed
    · apply absurd hheld
      apply CaseRange.not_holds_of_misses (misses_of_mem_caseRanges hrange hother) hholds

theorem isValidChar_lowerCode (c : Char) : (lowerCode c.toNat).isValidChar := by
  rcases lowerCode_cases c.toNat with heq | ⟨range, hrange, ⟨hfirst, hlast, -⟩, heq⟩
  · rw [heq]
    apply c.valid
  · have himage := image_of_mem_caseRanges range hrange
    simp only [CaseRange.lastImage] at himage
    rw [heq]
    unfold Nat.isValidChar
    omega

theorem toNat_ofNat_lowerCode (c : Char) :
    (Char.ofNat (lowerCode c.toNat)).toNat = lowerCode c.toNat := by
  rw [Char.ofNat, dif_pos (isValidChar_lowerCode c)]
  rfl

/-- Nothing gets a lower case form that is a blank or that has a form of two characters. -/
theorem lowerCode_eq_self_of_mem {n : Nat} (h : lowerCode n ∈ 0x130 :: blankCodes) : lowerCode n = n := by
  rcases lowerCode_cases n with heq | ⟨range, hrange, ⟨hfirst, hlast, -⟩, heq⟩
  · apply heq
  · have hmiss := (image_of_mem_caseRanges range hrange).2.2 _ h
    rw [CaseRange.lastImage, heq] at hmiss
    omega

theorem mem_lower_cases {c d : Char} (h : d ∈ lower c) :
    d = 'i' ∨ d = '\u0307' ∨ c ≠ '\u0130' ∧ d.toNat = lowerCode c.toNat := by
  unfold lower at h
  split at h
  · simp only [List.mem_cons, List.not_mem_nil, or_false] at h
    rcases h with rfl | rfl <;> simp
  · next hne =>
    rw [List.mem_singleton] at h
    rw [h, toNat_ofNat_lowerCode]
    simp [hne]

theorem lower_of_toNat {c : Char} (hne : c ≠ '\u0130') (h : lowerCode c.toNat = c.toNat) :
    lower c = [c] := by
  rw [lower, if_neg hne, h, Char.ofNat_toNat]

theorem lower_of_mem_lower {c d : Char} (h : d ∈ lower c) : lower d = [d] := by
  rcases mem_lower_cases h with rfl | rfl | ⟨hne, hcode⟩
  · decide
  · decide
  · apply lower_of_toNat
    · rintro rfl
      have hfixed : lowerCode c.toNat = c.toNat := lowerCode_eq_self_of_mem (by simp [← hcode])
      apply hne
      apply Char.toNat_inj.mp
      rw [← hfixed, ← hcode]
    · rw [hcode, lowerCode_lowerCode]

theorem not_isBlank_of_mem_lower {c d : Char} (hc : isBlank c = false) (h : d ∈ lower c) :
    isBlank d = false := by
  rcases mem_lower_cases h with rfl | rfl | ⟨-, hcode⟩
  · decide
  · decide
  · rw [Bool.eq_false_iff]
    intro hblank
    have hmem : lowerCode c.toNat ∈ blankCodes := hcode ▸ toNat_mem_blankCodes hblank
    have hfixed : lowerCode c.toNat = c.toNat := lowerCode_eq_self_of_mem (List.mem_cons_of_mem _ hmem)
    have heq : d = c := Char.toNat_inj.mp (hcode.trans hfixed)
    rw [heq, hc] at hblank
    contradiction

end SymbolSearch.Text
