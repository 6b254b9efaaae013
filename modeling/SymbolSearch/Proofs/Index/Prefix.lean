import SymbolSearch.Index.Cursor

/-!
This module contains the proof that the cursor of an index lists all groups whose keys start with a
text: binary search finds where they start, and they are neighbours.
-/

namespace SymbolSearch

namespace Text

theorem not_lt_of_starts {stem s : List Char} (h : stem <+: s) : ¬s < stem := by
  obtain ⟨behind, rfl⟩ := h
  induction stem with
  | nil => apply List.not_lt_nil _
  | cons c stem ih =>
    rw [List.cons_append, List.cons_lt_cons_iff]
    rintro (hlt | ⟨-, hlt⟩)
    · apply Char.lt_irrefl c hlt
    · exact ih hlt

theorem starts_of_lt_of_starts {stem s t : List Char} (hstem : ¬s < stem) (hlt : s < t)
    (h : stem <+: t) : stem <+: s := by
  obtain ⟨behind, rfl⟩ := h
  induction stem generalizing s with
  | nil => apply List.nil_prefix
  | cons c stem ih =>
    -- The text lies between the stem and one that starts with it, so it starts with `c` as well.
    cases s with
    | nil => exact absurd (List.nil_lt_cons _ _) hstem
    | cons d s =>
      rw [List.cons_lt_cons_iff, not_or, not_and] at hstem
      rw [List.cons_append, List.cons_lt_cons_iff] at hlt
      rcases hlt with hlt | ⟨rfl, hlt⟩
      · exact absurd hlt hstem.1
      · apply List.cons_prefix_cons.mpr ⟨rfl, ih (hstem.2 rfl) hlt⟩

end Text

namespace Index

theorem key_lt_key {groups : Array Group} (h : groups.toList.Pairwise (·.key < ·.key)) {i j : Nat}
    (hij : i < j) (hj : j < groups.size) : groups[i].key < groups[j].key := by
  apply List.pairwise_iff_getElem.mp h i j (Nat.lt_trans hij hj) hj hij

theorem lowerBound.go_spec {groups : Array Group} (hsorted : groups.toList.Pairwise (·.key < ·.key))
    (text : String) (low high : Nat) (hhigh : high ≤ groups.size)
    (hbelow : ∀ i (hi : i < groups.size), i < low → groups[i].key < text)
    (habove : ∀ i (hi : i < groups.size), high ≤ i → ¬groups[i].key < text)
    : ∀ i (hi : i < groups.size),
        groups[i].key < text ↔ i < go groups text low high hhigh := by
  -- All keys in front of `low` are less than the text, and none from `high` on is.
  intro i hi
  unfold go
  split
  · next hlt =>
    dsimp only
    split
    · next hmiddle =>
      apply go_spec hsorted
      · intro j hj hjmiddle
        rcases Nat.lt_or_eq_of_le (Nat.le_of_lt_succ hjmiddle) with hlt | rfl
        · apply String.lt_trans (key_lt_key hsorted hlt (by omega)) hmiddle
        · exact hmiddle
      · exact habove
    · next hmiddle =>
      apply go_spec hsorted
      · exact hbelow
      · intro j hj hjmiddle hjlt
        rcases Nat.lt_or_eq_of_le hjmiddle with hlt | rfl
        · exact hmiddle (String.lt_trans (key_lt_key hsorted hlt hj) hjlt)
        · exact hmiddle hjlt
  · next hnlt =>
    constructor
    · intro hikey
      apply Decidable.byContradiction
      intro hnot
      exact habove i hi (by omega) hikey
    · exact hbelow i hi
termination_by high - low

theorem key_lt_iff_lt_lowerBound (index : Index) (text : String) (i : Nat)
    (hi : i < index.groups.size) : index.groups[i].key < text ↔ i < index.lowerBound text := by
  unfold lowerBound
  apply lowerBound.go_spec index.ascending
  · intro j _ hj
    contradiction
  · intro j hj hsize
    omega

end Index

theorem takeWhile_eq_filter {α : Type} {p : α → Bool} {l : List α}
    (h : l.Pairwise (fun a b => p b → p a)) : l.takeWhile p = l.filter p := by
  induction l with
  | nil => rfl
  | cons a l ih =>
    obtain ⟨hfirst, hrest⟩ := List.pairwise_cons.mp h
    by_cases ha : p a
    · rw [List.takeWhile_cons_of_pos ha, List.filter_cons_of_pos ha, ih hrest]
    · rw [List.takeWhile_cons_of_neg ha, List.filter_cons_of_neg ha]
      symm
      apply List.filter_eq_nil_iff.mpr
      intro b hb hpb
      exact ha (hfirst b hb hpb)

namespace Cursor

theorem toList_of_next_eq_none {cursor rest : Cursor} (h : cursor.next = (none, rest)) :
    cursor.toList = [] := by
  rw [toList]
  split
  · rfl
  · next hsome =>
    rw [h] at hsome
    cases hsome

theorem toList_of_next_eq_some {cursor rest : Cursor} {group : Group}
    (h : cursor.next = (some group, rest)) : cursor.toList = group :: rest.toList := by
  rw [toList]
  split
  · next hnone =>
    rw [h] at hnone
    cases hnone
  · next hsome =>
    rw [h] at hsome
    cases hsome
    rfl

theorem toList_eq_takeWhile (cursor : Cursor) :
    cursor.toList = (cursor.groups.toList.drop cursor.position).takeWhile cursor.accepts := by
  fun_induction toList cursor with
  | case1 cursor rest hnext =>
    unfold next at hnext
    split at hnext
    · next hget =>
      have hsize : cursor.groups.toList.length ≤ cursor.position := Array.getElem?_eq_none_iff.mp hget
      rw [List.drop_eq_nil_of_le hsize]
      rfl
    · next group hget =>
      obtain ⟨hlt, hgroup⟩ := Array.getElem?_eq_some_iff.mp hget
      split at hnext
      · cases hnext
      · next hrefused =>
        rw [List.drop_eq_getElem_cons hlt, Array.getElem_toList, hgroup,
          List.takeWhile_cons_of_neg hrefused]
  | case2 cursor group rest hnext ih =>
    unfold next at hnext
    split at hnext
    · cases hnext
    · next hget =>
      obtain ⟨hlt, hgroup⟩ := Array.getElem?_eq_some_iff.mp hget
      split at hnext
      · next haccepted =>
        cases hnext
        rw [ih, List.drop_eq_getElem_cons hlt, Array.getElem_toList, hgroup,
          List.takeWhile_cons_of_pos haccepted]
        rfl
      · cases hnext

end Cursor

namespace Index

theorem filter_take_lowerBound (index : Index) (stem : String) :
    (index.groups.toList.take (index.lowerBound stem)).filter
      (fun group => stem.toList <+: group.key.toList) = [] := by
  apply List.filter_eq_nil_iff.mpr
  intro group hmem hstarts
  obtain ⟨i, hi, rfl⟩ := List.mem_take_iff_getElem.mp hmem
  rw [Array.length_toList] at hi
  have hlt := (index.key_lt_iff_lt_lowerBound stem i (by omega)).mpr (by omega)
  apply Text.not_lt_of_starts (of_decide_eq_true hstarts) hlt

theorem takeWhile_drop_lowerBound (index : Index) (stem : String) :
    (index.groups.toList.drop (index.lowerBound stem)).takeWhile
        (fun group => stem.toList <+: group.key.toList) =
      index.groups.toList.filter (fun group => stem.toList <+: group.key.toList) := by
  conv => rhs; rw [← List.take_append_drop (index.lowerBound stem) index.groups.toList]
  rw [List.filter_append, filter_take_lowerBound, List.nil_append]
  apply takeWhile_eq_filter
  -- From the lower bound on the keys ascend and none is less than the stem.
  apply List.pairwise_iff_getElem.mpr
  intro i j hi hj hij hstarts
  rw [List.length_drop, Array.length_toList] at hi hj
  rw [List.getElem_drop, Array.getElem_toList] at *
  have hstem : ¬index.groups[index.lowerBound stem + i].key < stem := by
    rw [key_lt_iff_lt_lowerBound]
    omega
  have hlt := key_lt_key index.ascending
    (Nat.add_lt_add_left hij (index.lowerBound stem)) (by omega)
  apply decide_eq_true (Text.starts_of_lt_of_starts hstem hlt (of_decide_eq_true hstarts))

theorem accepts_cursor (index : Index) (stem : String) :
    (index.cursor stem).accepts = fun group => decide (stem.toList <+: group.key.toList) := by
  funext group
  rw [Bool.eq_iff_iff, decide_eq_true_eq]
  apply List.isPrefixOf_iff_prefix

theorem toList_cursor (index : Index) (stem : String) :
    (index.cursor stem).toList =
      if stem = "" then []
      else index.groups.toList.filter (fun group => stem.toList <+: group.key.toList) := by
  rw [Cursor.toList_eq_takeWhile, accepts_cursor]
  by_cases hempty : stem = ""
  · have hend : index.groups.toList.drop index.groups.size = [] := List.drop_length
    simp [cursor, hempty, hend]
  · rw [← takeWhile_drop_lowerBound]
    simp [cursor, hempty]

end Index

end SymbolSearch
