import SymbolSearch.Entry
import SymbolSearch.Key

/-!
This module contains the groups of an index, the entries with the same key, and how a list of
entries that is sorted by key is cut into them.
-/

namespace SymbolSearch

/--
The entries that have one key.
-/
structure Group where
  key : String
  entries : List Entry
  deriving Repr, DecidableEq, Inhabited

/--
An entry together with its key.
-/
structure Keyed where
  key : String
  entry : Entry
  deriving Repr, DecidableEq

def Entry.keyed (entry : Entry) : Keyed :=
  { key := SymbolSearch.key entry.label, entry }

namespace Group

/--
Put an entry in front of groups: into the first one if that has the entry's key, otherwise into a
new one.
-/
def attach (item : Keyed) (groups : List Group) : List Group :=
  match groups with
  | [] => [{ key := item.key, entries := [item.entry] }]
  | group :: rest =>
    if group.key = item.key then
      { group with entries := item.entry :: group.entries } :: rest
    else
      { key := item.key, entries := [item.entry] } :: group :: rest

/--
Cut a list of entries where the key changes.
-/
def ofSorted (items : List Keyed) : List Group :=
  items.foldr attach []

/--
The groups of entries in ascending order of their keys. Inside a group the entries keep the order
that they had in the list.
-/
def ofEntries (entries : List Entry) : List Group :=
  ofSorted ((entries.map Entry.keyed).mergeSort (·.key ≤ ·.key))

theorem ofSorted_cons (item : Keyed) (items : List Keyed) :
    ofSorted (item :: items) = attach item (ofSorted items) :=
  rfl

theorem key_mem_of_mem_ofSorted {items : List Keyed} {group : Group} (h : group ∈ ofSorted items) :
    ∃ item ∈ items, item.key = group.key := by
  induction items generalizing group with
  | nil => simp [ofSorted] at h
  | cons item items ih =>
    rw [ofSorted_cons, attach.eq_def] at h
    split at h
    · simp at h
      exact ⟨item, by simp, by simp [h]⟩
    · next first rest hrest =>
      rw [hrest] at ih
      split at h
      · rcases List.mem_cons.mp h with h | h
        · obtain ⟨other, hmem, hkey⟩ := @ih first (by simp)
          exact ⟨other, by simp [hmem], by simp [h, hkey]⟩
        · obtain ⟨other, hmem, hkey⟩ := @ih group (by simp [h])
          exact ⟨other, by simp [hmem], hkey⟩
      · rcases List.mem_cons.mp h with h | h
        · exact ⟨item, by simp, by simp [h]⟩
        · obtain ⟨other, hmem, hkey⟩ := ih h
          exact ⟨other, by simp [hmem], hkey⟩

theorem pairwise_ofSorted {items : List Keyed} (h : items.Pairwise (·.key ≤ ·.key)) :
    (ofSorted items).Pairwise (·.key < ·.key) := by
  induction items with
  | nil => simp [ofSorted]
  | cons item items ih =>
    obtain ⟨hle, htail⟩ := List.pairwise_cons.mp h
    have hlt := ih htail
    have hbelow : ∀ group ∈ ofSorted items, item.key ≤ group.key := by
      intro group hmem
      obtain ⟨other, hother, hkey⟩ := key_mem_of_mem_ofSorted hmem
      exact hkey ▸ hle other hother
    rw [ofSorted_cons, attach.eq_def]
    split
    · simp
    · next first rest hrest =>
      rw [hrest] at hlt hbelow
      split
      · exact List.pairwise_cons.mpr (List.pairwise_cons.mp hlt)
      · next hne =>
        refine List.pairwise_cons.mpr ⟨?_, hlt⟩
        have hfirst : item.key < first.key := by
          apply Decidable.byContradiction
          intro hnot
          exact hne (String.le_antisymm (String.not_lt.mp hnot) (hbelow first (by simp)))
        intro group hmem
        rcases List.mem_cons.mp hmem with rfl | hmem
        · exact hfirst
        · exact String.lt_trans hfirst ((List.pairwise_cons.mp hlt).1 group hmem)

theorem pairwise_ofEntries (entries : List Entry) :
    (ofEntries entries).Pairwise (·.key < ·.key) := by
  apply pairwise_ofSorted
  have := @List.pairwise_mergeSort Keyed (fun a b => decide (a.key ≤ b.key))
    (fun a b c hab hbc => by
      simp only [decide_eq_true_eq] at *
      exact String.le_trans hab hbc)
    (fun a b => by
      simp only [Bool.or_eq_true, decide_eq_true_eq]
      exact String.le_total a.key b.key)
    (entries.map Entry.keyed)
  simpa using this

theorem length_flatMap_entries_attach (item : Keyed) (groups : List Group) :
    ((attach item groups).flatMap entries).length = (groups.flatMap entries).length + 1 := by
  unfold attach
  split
  · rfl
  · split <;> rfl

theorem length_flatMap_entries_ofSorted (items : List Keyed) :
    ((ofSorted items).flatMap entries).length = items.length := by
  induction items with
  | nil => rfl
  | cons item items ih => rw [ofSorted_cons, length_flatMap_entries_attach, ih, List.length_cons]

theorem length_flatMap_entries_ofEntries (entries : List Entry) :
    ((ofEntries entries).flatMap Group.entries).length = entries.length := by
  unfold ofEntries
  rw [length_flatMap_entries_ofSorted, List.length_mergeSort, List.length_map]

end Group

end SymbolSearch
