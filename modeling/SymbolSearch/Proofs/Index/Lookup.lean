import SymbolSearch.Proofs.Index.Build
import SymbolSearch.Proofs.Index.Prefix

/-!
This module contains what a cursor answers when it is asked again and again: what it has to list, one
group after the other, and nothing from then on.
-/

namespace SymbolSearch

namespace Cursor

/--
The answer of a cursor that was asked `n` times before.
-/
def answer (cursor : Cursor) : Nat → Option Group
  | 0 => cursor.next.1
  | n + 1 => cursor.next.2.answer n

theorem next_of_getElem?_eq_none {cursor : Cursor} (h : cursor.groups[cursor.position]? = none) :
    cursor.next = (none, cursor) := by
  unfold next
  rw [h]

theorem head?_toList (cursor : Cursor) : cursor.toList.head? = cursor.next.1 := by
  cases hnext : cursor.next with
  | mk group? rest =>
    cases group? with
    | none =>
      rw [toList_of_next_eq_none hnext]
      rfl
    | some group =>
      rw [toList_of_next_eq_some hnext]
      rfl

/-- One step of a cursor takes the first group off what it has to list. A cursor that has nothing to
list goes behind the last group or stays where it is, and has nothing to list there either. -/
theorem toList_next (cursor : Cursor) : cursor.next.2.toList = cursor.toList.tail := by
  cases hnext : cursor.next with
  | mk group? rest =>
    cases group? with
    | some group =>
      rw [toList_of_next_eq_some hnext]
      rfl
    | none =>
      rw [toList_of_next_eq_none hnext]
      refine toList_of_next_eq_none (?_ : rest.next = (none, rest))
      apply next_of_getElem?_eq_none
      unfold next at hnext
      split at hnext
      · next hget =>
        cases hnext
        exact hget
      · split at hnext
        · cases hnext
        · cases hnext
          apply Array.getElem?_eq_none (Nat.le_refl _)

theorem answer_eq_getElem?_toList (cursor : Cursor) (n : Nat) :
    cursor.answer n = cursor.toList[n]? := by
  induction n generalizing cursor with
  | zero =>
    rw [answer, ← head?_toList, List.head?_eq_getElem?]
  | succ n ih =>
    rw [answer, ih, toList_next, List.getElem?_tail]

end Cursor

namespace Index

/--
The groups whose keys start with a text, found by a look at every key. Nothing starts with the empty
text.
-/
def scan (index : Index) (stem : String) : List Group :=
  if stem = "" then []
  else index.groups.toList.filter (fun group => stem.toList <+: group.key.toList)

theorem pairwise_scan (index : Index) (stem : String) :
    (index.scan stem).Pairwise (·.key < ·.key) := by
  unfold scan
  split
  · apply List.Pairwise.nil
  · apply index.ascending.filter

theorem mem_scan_iff {index : Index} {stem : String} {group : Group} :
    group ∈ index.scan stem ↔
      group ∈ index.groups.toList ∧ stem ≠ "" ∧ stem.toList <+: group.key.toList := by
  unfold scan
  split
  · next hempty => simp [hempty]
  · next hne => simp [hne]

theorem length_entries_le_entryCount {index : Index} {group : Group}
    (h : group ∈ index.groups.toList) : group.entries.length ≤ index.entryCount := by
  rw [entryCount_eq_sum]
  apply List.single_le_sum (fun _ _ => Nat.zero_le _)
  apply List.mem_map_of_mem h

theorem length_scan_le_entryCount (entries : List Entry) (stem : String) :
    ((ofEntries entries).scan stem).length ≤ (ofEntries entries).entryCount := by
  have hscan : ((ofEntries entries).scan stem).length ≤ (ofEntries entries).groups.toList.length := by
    unfold scan
    split
    · apply Nat.zero_le
    · apply List.length_filter_le
  have hgroups : (ofEntries entries).groups.toList.length ≤ (ofEntries entries).entryCount := by
    rw [entryCount_eq_sum, ← List.length_map (fun group : Group => group.entries.length)]
    apply List.length_le_sum_of_one_le
    intro length hmem
    obtain ⟨group, hgroup, rfl⟩ := List.mem_map.mp hmem
    rw [groups_ofEntries] at hgroup
    exact List.length_pos_iff.mpr (Group.entries_ne_nil_of_mem_ofEntries hgroup)
  exact Nat.le_trans hscan hgroups

theorem lowerBound.go_le {groups : Array Group} (text : String) (low high : Nat)
    (hhigh : high ≤ groups.size) (hle : low ≤ high) : go groups text low high hhigh ≤ high := by
  unfold go
  split
  · dsimp only
    split
    · apply go_le
      omega
    · apply Nat.le_trans (go_le text low _ _ (by omega))
      omega
  · exact hle
termination_by high - low

theorem lowerBound_eq_countP (index : Index) (text : String) :
    index.lowerBound text = index.groups.toList.countP (·.key < text) := by
  have hle : index.lowerBound text ≤ index.groups.toList.length :=
    lowerBound.go_le text 0 index.groups.size (Nat.le_refl _) (Nat.zero_le _)
  have hfront : (index.groups.toList.take (index.lowerBound text)).countP (·.key < text) =
      index.lowerBound text := by
    rw [List.countP_eq_length.mpr, List.length_take_of_le hle]
    intro group hmem
    obtain ⟨i, hi, rfl⟩ := List.mem_take_iff_getElem.mp hmem
    rw [Array.length_toList] at hi
    apply decide_eq_true ((index.key_lt_iff_lt_lowerBound text i (by omega)).mpr (by omega))
  have hbehind : (index.groups.toList.drop (index.lowerBound text)).countP (·.key < text) = 0 := by
    apply List.countP_eq_zero.mpr
    intro group hmem
    obtain ⟨i, hi, rfl⟩ := List.mem_drop_iff_getElem.mp hmem
    rw [Array.length_toList] at hi
    rw [decide_eq_true_eq, Array.getElem_toList, key_lt_iff_lt_lowerBound]
    omega
  conv => rhs; rw [← List.take_append_drop (index.lowerBound text) index.groups.toList]
  rw [List.countP_append, hfront, hbehind, Nat.add_zero]

/-- The look-up of a text starts behind all keys that are less by their bytes. It lists exactly the
groups that a look at every key finds, each once and in their order, and answers nothing from then
on. -/
theorem lookup_ofEntries (entries : List Entry) (text : String) :
    let index := ofEntries entries
    let found := index.scan (key text)
    (index.lookup text).toList = found ∧
    (∀ n, (index.lookup text).answer n = found[n]?) ∧
    (∀ n, (index.lookup text).answer (found.length + n) = none) ∧
    found.Pairwise (fun a b => a.key.toUTF8.data.toList < b.key.toUTF8.data.toList) ∧
    (index.lookup text).position =
      if key text = "" then index.groups.size
      else index.groups.toList.countP fun group =>
        group.key.toUTF8.data.toList < (key text).toUTF8.data.toList := by
  dsimp only
  have hlist : ((ofEntries entries).lookup text).toList = (ofEntries entries).scan (key text) :=
    toList_cursor _ _
  have hanswer : ∀ n, ((ofEntries entries).lookup text).answer n =
      ((ofEntries entries).scan (key text))[n]? := by
    intro n
    rw [Cursor.answer_eq_getElem?_toList, hlist]
  refine ⟨hlist, hanswer, ?_, ?_, ?_⟩
  · intro n
    rw [hanswer]
    apply List.getElem?_eq_none
    omega
  · apply (pairwise_scan _ _).imp
    intro a b hlt
    apply Text.lt_iff_toUTF8_lt.mp hlt
  · simp only [lookup, cursor, String.isEmpty_iff, lowerBound_eq_countP, Text.lt_iff_toUTF8_lt]

end Index

end SymbolSearch
