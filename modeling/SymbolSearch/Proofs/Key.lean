import SymbolSearch.Key
import SymbolSearch.Proofs.Text.Blank

/-!
This module contains facts on keys: only blank texts have an empty key, trimming changes no
key, and the key of the front of a text is the front of its key.
-/

namespace SymbolSearch

open Text

theorem Text.lower_ne_nil (c : Char) : lower c ≠ [] := by
  unfold lower
  split <;> simp

@[simp]
theorem key_trimmed (text : String) : key (trimmed text) = key text := by
  simp [key, trimmed]

@[simp]
theorem key_eq_empty_iff {text : String} : key text = "" ↔ ∀ c ∈ text.toList, isBlank c := by
  unfold key
  rw [String.ofList_eq_empty_iff, List.flatMap_eq_nil_iff, ← squeeze_eq_nil_iff]
  constructor
  · intro h
    apply List.eq_nil_iff_forall_not_mem.mpr
    intro c hc
    apply lower_ne_nil c (h c hc)
  · intro h c hc
    rw [h] at hc
    contradiction

theorem key_eq_empty_iff_trimmed {text : String} : key text = "" ↔ trimmed text = "" := by
  rw [key_eq_empty_iff, trimmed_eq_empty_iff]

theorem key_prefix_key {s t : String} (h : s.toList <+: t.toList) :
    (key s).toList <+: (key t).toList := by
  obtain ⟨behind, hbehind⟩ := h
  obtain ⟨rest, hrest⟩ := squeeze_prefix_append s.toList behind
  unfold key
  rw [← hbehind, ← hrest, List.flatMap_append, String.toList_ofList, String.toList_ofList]
  apply List.prefix_append

end SymbolSearch
