import SymbolSearch.Proofs.Index.Build

/-!
This module contains the proof that the entries of an index build the same index again. Their order does
not matter either, as long as each group keeps its own.
-/

namespace SymbolSearch

namespace Entry

/--
Whether an index holds an entry as it is.
-/
structure IsClean (entry : Entry) : Prop where
  usable : entry.Usable
  trim_eq : entry.trim = entry

theorem isClean_trim {entry : Entry} (h : entry.Usable) : entry.trim.IsClean := by
  constructor
  case usable => simpa [Usable, Text.trimmed] using h
  case trim_eq => simp [trim, Text.trimmed]

theorem map_trim_filter_usable {entries : List Entry} (h : ∀ entry ∈ entries, entry.IsClean) :
    (entries.filter (·.Usable)).map trim = entries := by
  have husable : entries.filter (·.Usable) = entries := by
    apply List.filter_eq_self.mpr
    intro entry hmem
    apply decide_eq_true (h entry hmem).usable
  have htrim : entries.map trim = entries.map id := by
    apply List.map_congr_left
    intro entry hmem
    apply (h entry hmem).trim_eq
  rw [husable, htrim, List.map_id]

end Entry

namespace Group

theorem nodup_ofEntries (entries : List Entry) : (ofEntries entries).Nodup := by
  apply (pairwise_ofEntries entries).imp
  rintro group _ hlt rfl
  apply String.lt_irrefl _ hlt

theorem ofEntries_eq_of_filter_eq {entries again : List Entry}
    (h : ∀ wanted, again.filter (fun entry => SymbolSearch.key entry.label = wanted) =
      entries.filter (fun entry => SymbolSearch.key entry.label = wanted)) :
    ofEntries again = ofEntries entries := by
  apply List.Perm.eq_of_pairwise _ (pairwise_ofEntries again) (pairwise_ofEntries entries)
  · apply (List.perm_ext_iff_of_nodup (nodup_ofEntries again) (nodup_ofEntries entries)).mpr
    intro group
    rw [mem_ofEntries_iff, mem_ofEntries_iff, h]
  · intro a b _ _ hlt hgt
    apply absurd hgt (String.lt_asymm hlt)

theorem ofEntries_eq_iff_of_perm {entries again : List Entry} (hperm : again.Perm entries) :
    ofEntries again = ofEntries entries ↔
      ∀ group ∈ ofEntries entries, group.entries.Sublist again := by
  constructor
  · intro heq group hmem
    rw [← heq] at hmem
    rw [entries_of_mem_ofEntries hmem]
    apply List.filter_sublist
  · intro hsub
    apply ofEntries_eq_of_filter_eq
    intro wanted
    apply filter_eq_of_filter_sublist hperm
    -- The entries with a key are a group, unless there are none.
    by_cases hnil : entries.filter (fun entry => SymbolSearch.key entry.label = wanted) = []
    · rw [hnil]
      apply List.nil_sublist
    · apply hsub ⟨wanted, _⟩
      apply mem_ofEntries_iff.mpr ⟨hnil, rfl⟩

end Group

namespace Index

/--
The entries of an index in the order of their keys.
-/
def entries (index : Index) : List Entry :=
  index.groups.toList.flatMap Group.entries

/--
Whether an index holds the groups of another one and nothing was rejected when it was built.
-/
structure Restores (rebuilt index : Index) : Prop where
  keys_eq : rebuilt.keys = index.keys
  groups_eq : rebuilt.groups = index.groups
  entryCount_eq : rebuilt.entryCount = index.entryCount
  rejections_eq : rebuilt.rejections = []

theorem restores_iff {rebuilt index : Index} :
    rebuilt.Restores index ↔
      rebuilt.groups.toList = index.groups.toList ∧ rebuilt.rejections = [] := by
  constructor
  · intro h
    rw [h.groups_eq]
    exact ⟨rfl, h.rejections_eq⟩
  · rintro ⟨hgroups, hrejections⟩
    have hgroups := Array.toList_inj.mp hgroups
    constructor
    case keys_eq => rw [keys, hgroups, keys]
    case groups_eq => apply hgroups
    case entryCount_eq => rw [rebuilt.counted, index.counted, hgroups]
    case rejections_eq => apply hrejections

theorem entries_ofEntries_perm (entries : List Entry) :
    (ofEntries entries).entries.Perm ((entries.filter (·.Usable)).map Entry.trim) := by
  rw [Index.entries, groups_ofEntries]
  apply Group.flatMap_entries_ofEntries_perm

theorem isClean_of_mem_entries {entries : List Entry} {entry : Entry}
    (h : entry ∈ (ofEntries entries).entries) : entry.IsClean := by
  obtain ⟨written, hmem, rfl⟩ := List.mem_map.mp ((entries_ofEntries_perm entries).mem_iff.mp h)
  apply Entry.isClean_trim (of_decide_eq_true (List.mem_filter.mp hmem).2)

theorem rejections_ofEntries_of_isClean {entries : List Entry} (h : ∀ entry ∈ entries, entry.IsClean) :
    (ofEntries entries).rejections = [] := by
  rw [← List.length_eq_zero_iff, length_rejections_ofEntries, List.countP_eq_zero]
  intro entry hmem
  simpa using (h entry hmem).usable

theorem restores_iff_of_perm {entries again : List Entry}
    (hperm : again.Perm (ofEntries entries).entries) :
    (ofEntries again).Restores (ofEntries entries) ↔
      ∀ group ∈ (ofEntries entries).groups.toList, group.entries.Sublist again := by
  have hclean : ∀ entry ∈ again, entry.IsClean := by
    intro entry hmem
    apply isClean_of_mem_entries (hperm.mem_iff.mp hmem)
  rw [restores_iff, rejections_ofEntries_of_isClean hclean, groups_ofEntries, groups_ofEntries,
    Entry.map_trim_filter_usable hclean,
    Group.ofEntries_eq_iff_of_perm (hperm.trans (entries_ofEntries_perm entries))]
  simp

/--
An index restores itself from its own entries in the order of their keys. In any other order they
restore it exactly if the entries of each group are still in their order.
-/
theorem ofEntries_restores (entries : List Entry) :
    let index := ofEntries entries
    (ofEntries index.entries).Restores index ∧
      ∀ again : List Entry, again.Perm index.entries →
        ((ofEntries again).Restores index ↔
          ∀ group ∈ index.groups.toList, group.entries.Sublist again) := by
  constructor
  · apply (restores_iff_of_perm (List.Perm.refl _)).mpr
    intro group hmem
    rw [Index.entries, List.flatMap_def]
    apply List.sublist_flatten_of_mem (List.mem_map_of_mem hmem)
  · intro again hperm
    apply restores_iff_of_perm hperm

theorem ofEntries_restores_mixed :
    let index := ofEntries
      [⟨" B ", "s ", "u", none⟩, ⟨"a", "", "v", some .page⟩, ⟨"", "", "w", none⟩, ⟨"b", "", "u ", none⟩]
    let mixed : List Entry := [⟨"B", "s", "u", none⟩, ⟨"a", "", "v", some .page⟩, ⟨"b", "", "u", none⟩]
    mixed.Perm index.entries ∧ (∀ group ∈ index.groups.toList, group.entries.Sublist mixed) ∧
      (ofEntries mixed).Restores index := by
  intro index mixed
  have hmixed : (List.filter (·.Usable) [
      ⟨" B ", "s ", "u", none⟩, ⟨"a", "", "v", some .page⟩, ⟨"", "", "w", none⟩,
      ⟨"b", "", "u ", none⟩]).map Entry.trim = mixed := by
    decide +kernel
  have hperm : mixed.Perm index.entries := by
    rw [← hmixed]
    apply (entries_ofEntries_perm _).symm
  have hsub : ∀ group ∈ index.groups.toList, group.entries.Sublist mixed := by
    intro group hmem
    rw [groups_ofEntries, hmixed] at hmem
    rw [Group.entries_of_mem_ofEntries hmem]
    apply List.filter_sublist
  exact ⟨hperm, hsub, ((ofEntries_restores _).2 mixed hperm).mpr hsub⟩

end Index

end SymbolSearch
