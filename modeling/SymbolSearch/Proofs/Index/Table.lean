import Mathlib.Data.List.Sort
import SymbolSearch.Proofs.Index.Group
import SymbolSearch.Proofs.Text.ByteOrder

/-!
This module contains a second way to the groups of an index: the entries are put one after the other
into a hash map, whose pairs of a key and its entries are then sorted by key. The order in which the
map lists its pairs does not matter.
-/

namespace SymbolSearch

namespace Group

/--
The entries under their keys in a hash map. Each entry is put behind those that are there already.
-/
def table (entries : List Entry) : Std.HashMap String (List Entry) :=
  go ∅ entries
where
  go (held : Std.HashMap String (List Entry)) : List Entry → Std.HashMap String (List Entry)
    | [] => held
    | entry :: rest =>
      go (held.alter (SymbolSearch.key entry.label) fun group? => some (group?.getD [] ++ [entry])) rest

theorem table.getElem?_go (held : Std.HashMap String (List Entry)) (entries : List Entry)
    (wanted : String) :
    (go held entries)[wanted]? =
      if entries.filter (fun entry => SymbolSearch.key entry.label = wanted) = [] then
        held[wanted]?
      else
        some (held[wanted]?.getD [] ++
          entries.filter (fun entry => SymbolSearch.key entry.label = wanted)) := by
  induction entries generalizing held with
  | nil => rfl
  | cons entry rest ih =>
    rw [go, ih, Std.HashMap.getElem?_alter]
    by_cases hkey : SymbolSearch.key entry.label = wanted
    · simp only [hkey, beq_self_eq_true, ↓reduceIte, decide_true, List.filter_cons_of_pos,
        reduceCtorEq, Option.getD_some, List.append_assoc, List.cons_append, List.nil_append]
      split
      · next hnil => rw [hnil]
      · rfl
    · simp [hkey]

theorem getElem?_table_eq_some_iff {entries : List Entry} {wanted : String} {found : List Entry} :
    (table entries)[wanted]? = some found ↔
      found ≠ [] ∧ found = entries.filter (fun entry => SymbolSearch.key entry.label = wanted) := by
  unfold table
  rw [table.getElem?_go]
  split
  · next hnil =>
    rw [hnil]
    simp
  · next hne =>
    simp only [Std.HashMap.getElem?_empty, Option.getD_none, List.nil_append, Option.some.injEq]
    constructor
    · rintro rfl
      exact ⟨hne, rfl⟩
    · rintro ⟨-, rfl⟩
      rfl

def toPair (group : Group) : String × List Entry :=
  (group.key, group.entries)

theorem mem_map_toPair_iff {entries : List Entry} {wanted : String} {found : List Entry} :
    (wanted, found) ∈ (ofEntries entries).map toPair ↔
      found ≠ [] ∧ found = entries.filter (fun entry => SymbolSearch.key entry.label = wanted) := by
  rw [List.mem_map]
  constructor
  · rintro ⟨group, hmem, heq⟩
    cases heq
    apply mem_ofEntries_iff.mp hmem
  · intro h
    exact ⟨⟨wanted, found⟩, mem_ofEntries_iff.mpr h, rfl⟩

theorem map_toPair_perm_toList_table (entries : List Entry) :
    ((ofEntries entries).map toPair).Perm (table entries).toList := by
  apply (List.perm_ext_iff_of_nodup _ _).mpr
  · rintro ⟨wanted, found⟩
    rw [mem_map_toPair_iff, Std.HashMap.mem_toList_iff_getElem?_eq_some,
      getElem?_table_eq_some_iff]
  · apply List.Pairwise.map toPair _ (pairwise_ofEntries entries)
    intro a b hlt heq
    have hkey : a.key = b.key := congrArg Prod.fst heq
    rw [hkey] at hlt
    apply String.lt_irrefl _ hlt
  · apply Std.HashMap.distinct_keys_toList.imp
    intro a b hne heq
    rw [heq, beq_self_eq_true] at hne
    contradiction

theorem eq_map_toPair_of_perm {entries : List Entry} {sorted : List (String × List Entry)}
    (hperm : sorted.Perm (table entries).toList)
    (hsorted : sorted.Pairwise (fun a b => ¬b.1.toUTF8.data.toList < a.1.toUTF8.data.toList)) :
    sorted = (ofEntries entries).map toPair := by
  have hgroups := hperm.trans (map_toPair_perm_toList_table entries).symm
  apply List.Perm.eq_of_pairwise _ hsorted _ hgroups
  · rintro ⟨first, found⟩ ⟨second, found'⟩ hmem hmem' hle hge
    rw [← Text.lt_iff_toUTF8_lt] at hle hge
    have heq : first = second := String.le_antisymm (String.not_lt.mp hle) (String.not_lt.mp hge)
    have hfound := (mem_map_toPair_iff.mp (hgroups.mem_iff.mp hmem)).2
    have hfound' := (mem_map_toPair_iff.mp hmem').2
    rw [hfound, hfound', heq]
  · apply List.Pairwise.map toPair _ (pairwise_ofEntries entries)
    intro a b hlt hgt
    rw [← Text.lt_iff_toUTF8_lt] at hgt
    apply String.lt_asymm hlt hgt

end Group

end SymbolSearch
