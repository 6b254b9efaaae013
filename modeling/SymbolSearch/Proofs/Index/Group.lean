import Mathlib
import SymbolSearch.Index.Group

/-!
This module contains what cutting a sorted list of entries into groups does: nothing is lost, and
each group holds the entries with its key in the order in which they came.
-/

namespace SymbolSearch

namespace Group

/--
The entries of a group together with its key, as they stood in the list that was cut.
-/
def items (group : Group) : List Keyed :=
  group.entries.map ({ key := group.key, entry := · })

theorem map_entry_items (group : Group) : group.items.map Keyed.entry = group.entries := by
  unfold items
  rw [List.map_map]
  apply List.map_id

theorem flatMap_items_attach (item : Keyed) (groups : List Group) :
    (attach item groups).flatMap items = item :: groups.flatMap items := by
  unfold attach
  split
  · rfl
  · split
    · next group rest heq =>
      simp [items, heq]
    · rfl

theorem flatMap_items_ofSorted (keyed : List Keyed) : (ofSorted keyed).flatMap items = keyed := by
  induction keyed with
  | nil => rfl
  | cons item keyed ih => rw [ofSorted_cons, flatMap_items_attach, ih]

theorem entries_ne_nil_of_mem_attach {item : Keyed} {groups : List Group} {group : Group}
    (hgroups : ∀ group ∈ groups, group.entries ≠ []) (h : group ∈ attach item groups) :
    group.entries ≠ [] := by
  unfold attach at h
  split at h
  · rw [List.mem_singleton.mp h]
    apply List.cons_ne_nil _ _
  · split at h
    all_goals
      rcases List.mem_cons.mp h with rfl | hmem
      · apply List.cons_ne_nil _ _
      · apply hgroups
        simp_all

theorem entries_ne_nil_of_mem_ofSorted {keyed : List Keyed} {group : Group}
    (h : group ∈ ofSorted keyed) : group.entries ≠ [] := by
  induction keyed generalizing group with
  | nil => contradiction
  | cons item keyed ih =>
    rw [ofSorted_cons] at h
    apply entries_ne_nil_of_mem_attach (fun _ hmem => ih hmem) h

theorem filter_items (group : Group) (wanted : String) :
    group.items.filter (·.key = wanted) = if group.key = wanted then group.items else [] := by
  split
  · next heq =>
    apply List.filter_eq_self.mpr
    simp [items, heq]
  · next hne =>
    apply List.filter_eq_nil_iff.mpr
    simp [items, hne]

theorem filter_flatMap_items {groups : List Group} (h : groups.Pairwise (·.key < ·.key))
    {group : Group} (hmem : group ∈ groups) :
    (groups.flatMap items).filter (·.key = group.key) = group.items := by
  induction groups with
  | nil => contradiction
  | cons first rest ih =>
    -- No two groups have the same key, so only one of them passes the filter.
    obtain ⟨hfirst, hrest⟩ := List.pairwise_cons.mp h
    rw [List.flatMap_cons, List.filter_append, filter_items]
    rcases List.mem_cons.mp hmem with rfl | hmem
    · have hbehind : (rest.flatMap items).filter (·.key = group.key) = [] := by
        apply List.filter_eq_nil_iff.mpr
        intro item hitem heq
        obtain ⟨other, hother, hentry⟩ := List.mem_flatMap.mp hitem
        obtain ⟨entry, -, rfl⟩ := List.mem_map.mp hentry
        have hlt := hfirst other hother
        rw [← of_decide_eq_true heq] at hlt
        apply String.lt_irrefl _ hlt
      rw [hbehind, if_pos rfl, List.append_nil]
    · have hne : first.key ≠ group.key := by
        intro heq
        have hlt := hfirst group hmem
        rw [heq] at hlt
        apply String.lt_irrefl _ hlt
      rw [if_neg hne, List.nil_append, ih hrest hmem]

end Group

theorem filter_eq_of_filter_sublist {α : Type} {p : α → Bool} {l l' : List α} (hperm : l'.Perm l)
    (h : (l.filter p).Sublist l') : l'.filter p = l.filter p := by
  have hfilter := h.filter p
  rw [List.filter_filter] at hfilter
  simp only [Bool.and_self] at hfilter
  apply (hfilter.eq_of_length _).symm
  exact (hperm.filter p).length_eq.symm

theorem Keyed.filter_mergeSort (keyed : List Keyed) (wanted : String) :
    (keyed.mergeSort (·.key ≤ ·.key)).filter (·.key = wanted) = keyed.filter (·.key = wanted) := by
  have hsorted : (keyed.filter (·.key = wanted)).Pairwise
      (fun a b => decide (a.key ≤ b.key) = true) := by
    apply List.pairwise_of_forall_mem_list
    intro a ha b hb
    have ha := of_decide_eq_true (List.mem_filter.mp ha).2
    have hb := of_decide_eq_true (List.mem_filter.mp hb).2
    simp [ha, hb]
  -- Sorting is stable: what is in order already keeps its order.
  have hsub := List.sublist_mergeSort
    (fun a b c hab hbc => by
      simp only [decide_eq_true_eq] at *
      apply String.le_trans hab hbc)
    (fun a b => by
      simp only [Bool.or_eq_true, decide_eq_true_eq]
      apply String.le_total a.key b.key)
    hsorted List.filter_sublist
  apply filter_eq_of_filter_sublist (List.mergeSort_perm keyed _) hsub

namespace Group

theorem entries_of_mem_ofEntries {entries : List Entry} {group : Group}
    (h : group ∈ ofEntries entries) :
    group.entries = entries.filter (fun entry => SymbolSearch.key entry.label = group.key) := by
  have hfilter := filter_flatMap_items (pairwise_ofEntries entries) h
  unfold ofEntries at hfilter
  rw [flatMap_items_ofSorted, Keyed.filter_mergeSort, List.filter_map] at hfilter
  have hentries := congrArg (List.map Keyed.entry) hfilter
  have hentry : Keyed.entry ∘ Entry.keyed = id := rfl
  have hitem : Keyed.entry ∘ ({ key := group.key, entry := · }) = id := rfl
  rw [items, List.map_map, List.map_map, hentry, hitem, List.map_id, List.map_id] at hentries
  rw [← hentries]
  apply List.filter_congr
  intro entry _
  rw [Function.comp_apply, Bool.eq_iff_iff, decide_eq_true_eq, decide_eq_true_eq, Entry.keyed]

theorem mem_ofEntries_keys_iff {entries : List Entry} {wanted : String} :
    (∃ group ∈ ofEntries entries, group.key = wanted) ↔
      ∃ entry ∈ entries, SymbolSearch.key entry.label = wanted := by
  constructor
  · rintro ⟨group, hmem, rfl⟩
    obtain ⟨item, hitem, hkey⟩ := key_mem_of_mem_ofSorted hmem
    obtain ⟨entry, hentry, rfl⟩ := List.mem_map.mp (List.mem_mergeSort.mp hitem)
    exact ⟨entry, hentry, hkey⟩
  · rintro ⟨entry, hentry, rfl⟩
    have hitem : entry.keyed ∈ (ofEntries entries).flatMap items := by
      rw [ofEntries, flatMap_items_ofSorted, List.mem_mergeSort]
      apply List.mem_map_of_mem hentry
    obtain ⟨group, hgroup, hmem⟩ := List.mem_flatMap.mp hitem
    obtain ⟨_, -, heq⟩ := List.mem_map.mp hmem
    exact ⟨group, hgroup, congrArg Keyed.key heq⟩

theorem entries_ne_nil_of_mem_ofEntries {entries : List Entry} {group : Group}
    (h : group ∈ ofEntries entries) : group.entries ≠ [] :=
  entries_ne_nil_of_mem_ofSorted h

theorem mem_ofEntries_iff {entries : List Entry} {group : Group} :
    group ∈ ofEntries entries ↔ group.entries ≠ [] ∧
      group.entries = entries.filter (fun entry => SymbolSearch.key entry.label = group.key) := by
  constructor
  · intro h
    exact ⟨entries_ne_nil_of_mem_ofEntries h, entries_of_mem_ofEntries h⟩
  · rintro ⟨hne, hentries⟩
    obtain ⟨entry, hentry⟩ := List.exists_mem_of_ne_nil _ hne
    rw [hentries, List.mem_filter, decide_eq_true_eq] at hentry
    obtain ⟨other, hother, hkey⟩ := mem_ofEntries_keys_iff.mpr ⟨entry, hentry⟩
    have heq : other = group := by
      rw [Group.mk.injEq]
      exact ⟨hkey, by rw [entries_of_mem_ofEntries hother, hentries, hkey]⟩
    exact heq ▸ hother

theorem flatMap_entries_ofEntries_perm (entries : List Entry) :
    ((ofEntries entries).flatMap Group.entries).Perm entries := by
  have hitems := congrArg (List.map Keyed.entry)
    (flatMap_items_ofSorted ((entries.map Entry.keyed).mergeSort (·.key ≤ ·.key)))
  simp only [List.map_flatMap, map_entry_items] at hitems
  unfold ofEntries
  rw [hitems]
  apply ((List.mergeSort_perm _ _).map Keyed.entry).trans
  rw [List.map_map]
  exact List.Perm.of_eq (List.map_id entries)

end Group

end SymbolSearch
