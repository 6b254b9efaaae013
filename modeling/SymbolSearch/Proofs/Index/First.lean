import SymbolSearch.Proofs.Index.Get
import SymbolSearch.Proofs.Index.Lookup

/-!
This module contains the proof that the two look-ups of an index agree: what an exact look-up finds is the
first group that the look-up of all keys with the text in front lists, and only if its key goes no further.
-/

namespace SymbolSearch.Index

theorem fst_next_lookup (index : Index) (text : String) :
    (index.lookup text).next.1 = (index.scan (key text)).head? := by
  rw [← Cursor.head?_toList]
  apply congrArg List.head? (toList_cursor index (key text))

/-- No key that starts with another one comes before it. -/
theorem head?_scan_key {index : Index} {group : Group} (h : group ∈ index.groups.toList)
    (hne : group.key ≠ "") : (index.scan group.key).head? = some group := by
  have hmem : group ∈ index.scan group.key := mem_scan_iff.mpr ⟨h, hne, List.prefix_refl _⟩
  cases hscan : index.scan group.key with
  | nil =>
    rw [hscan] at hmem
    contradiction
  | cons first rest =>
    have hfirst : first ∈ index.scan group.key := by
      rw [hscan]
      apply List.mem_cons_self
    have hpairwise := index.pairwise_scan group.key
    rw [hscan] at hmem hpairwise
    rcases List.mem_cons.mp hmem with rfl | hbehind
    · rfl
    · have hlt := (List.pairwise_cons.mp hpairwise).1 group hbehind
      apply absurd hlt (Text.not_lt_of_starts (mem_scan_iff.mp hfirst).2.2)

theorem key_ne_empty_of_mem_groups {entries : List Entry} {group : Group}
    (h : group ∈ (ofEntries entries).groups.toList) : group.key ≠ "" := by
  obtain ⟨entry, -, husable, hkey⟩ := mem_keys_ofEntries_iff.mp (List.mem_map_of_mem h)
  rw [← hkey]
  apply Entry.key_label_ne_empty husable

/--
An exact look-up finds some entries exactly if the first group that the other look-up lists has the very
key of the text and holds these entries. Neither finds anything for a text without a key.
-/
theorem get?_ofEntries_eq_some_iff (entries : List Entry) (text : String) :
    let index := ofEntries entries
    (∀ found, index.get? text = some found ↔
      ∃ first, (index.lookup text).next.1 = some first ∧
        first.key = key text ∧ first.entries = found) ∧
    (key text = "" → index.get? text = none ∧ (index.lookup text).next.1 = none) := by
  dsimp only
  constructor
  · intro found
    rw [get?_eq_some_iff, fst_next_lookup]
    constructor
    · rintro ⟨group, hmem, hkey, hentries⟩
      refine ⟨group, ?_, hkey, hentries⟩
      rw [← hkey]
      apply head?_scan_key hmem (key_ne_empty_of_mem_groups hmem)
    · rintro ⟨group, hfirst, hkey, hentries⟩
      exact ⟨group, (mem_scan_iff.mp (List.mem_of_head? hfirst)).1, hkey, hentries⟩
  · intro hempty
    constructor
    · rw [Option.eq_none_iff_forall_ne_some]
      intro found h
      obtain ⟨group, hmem, hkey, -⟩ := get?_eq_some_iff.mp h
      apply key_ne_empty_of_mem_groups hmem (hkey.trans hempty)
    · rw [fst_next_lookup, hempty, scan, if_pos rfl]
      rfl

theorem get?_ofEntries_blank :
    let index := ofEntries [⟨"b c", "", "u", none⟩, ⟨"B", "", "v", none⟩]
    key "\u00A0\t" = "" ∧ index.get? "\u00A0\t" = none ∧ (index.lookup "\u00A0\t").next.1 = none := by
  have hempty : key "\u00A0\t" = "" := by decide +kernel
  exact ⟨hempty, (get?_ofEntries_eq_some_iff _ _).2 hempty⟩

end SymbolSearch.Index
