import SymbolSearch.Proofs.Index.Build
import SymbolSearch.Proofs.Index.Prefix
import SymbolSearch.Proofs.Key.Normal

/-!
This module contains the proof that an exact look-up finds the group of every text that has the key of
one of the entries, whatever the case of its letters and the blanks between its words.
-/

namespace SymbolSearch.Index

theorem lowerBound_key (index : Index) (i : Nat) (hi : i < index.groups.size) :
    index.lowerBound index.groups[i].key = i := by
  apply Nat.le_antisymm
  · apply Nat.le_of_not_lt
    intro hlt
    apply String.lt_irrefl _ ((index.key_lt_iff_lt_lowerBound _ i hi).mpr hlt)
  · apply Nat.le_of_not_lt
    intro hlt
    have hkey := key_lt_key index.ascending hlt hi
    apply Nat.lt_irrefl _ ((index.key_lt_iff_lt_lowerBound _ _ (by omega)).mp hkey)

theorem get?_eq_some_iff {index : Index} {text : String} {found : List Entry} :
    index.get? text = some found ↔
      ∃ group ∈ index.groups.toList, group.key = key text ∧ group.entries = found := by
  unfold get?
  dsimp only
  constructor
  · intro h
    split at h
    · contradiction
    · next group hget =>
      split at h
      · next hkey =>
        cases h
        exact ⟨group, Array.mem_toList_iff.mpr (Array.mem_of_getElem? hget), hkey, rfl⟩
      · contradiction
  · rintro ⟨group, hmem, hkey, rfl⟩
    obtain ⟨i, hi, rfl⟩ := List.mem_iff_getElem.mp hmem
    rw [Array.length_toList] at hi
    rw [Array.getElem_toList] at hkey ⊢
    rw [← hkey, lowerBound_key index i hi, Array.getElem?_eq_getElem hi]
    simp

theorem isSome_get?_iff {index : Index} {text : String} :
    (index.get? text).isSome ↔ key text ∈ index.keys := by
  rw [Option.isSome_iff_exists, keys, List.mem_map]
  constructor
  · rintro ⟨found, h⟩
    obtain ⟨group, hmem, hkey, -⟩ := get?_eq_some_iff.mp h
    exact ⟨group, hmem, hkey⟩
  · rintro ⟨group, hmem, hkey⟩
    exact ⟨group.entries, get?_eq_some_iff.mpr ⟨group, hmem, hkey, rfl⟩⟩

theorem key_of_mem_keys_ofEntries {entries : List Entry} {wanted : String}
    (h : wanted ∈ (ofEntries entries).keys) : key wanted = wanted := by
  obtain ⟨entry, -, -, rfl⟩ := mem_keys_ofEntries_iff.mp h
  apply key_key

/--
Keys have a normal form, which they keep when they are looked up again. A text finds the entries whose
labels have its key, and it finds something exactly if there are such entries.
-/
theorem get?_ofEntries (entries : List Entry) (text : String) :
    let index := ofEntries entries
    IsNormal (key text) ∧ key (key text) = key text ∧ (key text = text ↔ IsNormal text) ∧
    (key text = "" ↔ ∀ c ∈ text.toList, Text.isBlank c) ∧
    (∀ wanted ∈ index.keys, key wanted = wanted) ∧
    (∀ group ∈ index.groups.toList, index.get? group.key = some group.entries) ∧
    ((index.get? text).isSome ↔ ∃ entry ∈ entries, entry.Usable ∧ key entry.label = key text) ∧
    ∀ found, index.get? text = some found → found = usableEntries entries (key text) := by
  dsimp only
  have hkeys : ∀ wanted ∈ (ofEntries entries).keys, key wanted = wanted := by
    intro wanted hmem
    apply key_of_mem_keys_ofEntries hmem
  refine ⟨isNormal_key text, key_key text, key_eq_self_iff, key_eq_empty_iff, hkeys, ?_, ?_, ?_⟩
  · intro group hmem
    have hkey := hkeys group.key (List.mem_map_of_mem hmem)
    exact get?_eq_some_iff.mpr ⟨group, hmem, hkey.symm, rfl⟩
  · rw [isSome_get?_iff, mem_keys_ofEntries_iff]
  · intro found h
    obtain ⟨group, hmem, hkey, rfl⟩ := get?_eq_some_iff.mp h
    rw [← hkey]
    apply entries_of_mem_groups_ofEntries hmem

end SymbolSearch.Index
