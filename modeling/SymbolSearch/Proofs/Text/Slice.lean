import SymbolSearch.Text.Slice

/-!
This module contains the proof that a part may be cut out of a text exactly between two boundaries, and
what stands at the places that a search finds.
-/

namespace SymbolSearch.Text

theorem utf8ByteSize_ofList (s : List Char) : (String.ofList s).utf8ByteSize = byteLength s := by
  induction s with
  | nil => rfl
  | cons c s ih =>
    have hcons : String.ofList (c :: s) = String.singleton c ++ String.ofList s := by
      rw [String.singleton_eq_ofList, ← String.ofList_append, List.singleton_append]
    rw [hcons, String.utf8ByteSize_append, String.utf8ByteSize_singleton, ih, byteLength_cons]

theorem isBoundary_iff {text : List Char} {place : Nat} :
    IsBoundary text place ↔ ∃ front rest, text = front ++ rest ∧ byteLength front = place := by
  unfold IsBoundary
  rw [String.Pos.Raw.isValid_ofList]
  constructor
  · rintro ⟨n, hn⟩
    rw [utf8ByteSize_ofList] at hn
    exact ⟨text.take n, text.drop n, (List.take_append_drop n text).symm, hn.symm⟩
  · rintro ⟨front, rest, rfl, rfl⟩
    exact ⟨front.length, by rw [List.take_left, utf8ByteSize_ofList]⟩

theorem isBoundary_of_suffix {text rest : List Char} {place : Nat} (h : rest <:+ text)
    (hplace : place + byteLength rest = byteLength text) : IsBoundary text place := by
  obtain ⟨front, rfl⟩ := h
  rw [byteLength_append, Nat.add_right_cancel_iff] at hplace
  exact isBoundary_iff.mpr ⟨front, rest, rfl, hplace.symm⟩

theorem byteLength_pos {s : List Char} (h : s ≠ []) : 0 < byteLength s := by
  obtain ⟨c, r, rfl⟩ := List.exists_cons_of_ne_nil h
  rw [byteLength_cons]
  exact Nat.add_pos_left c.utf8Size_pos _

theorem byteLength_le_of_suffix {s t : List Char} (h : s <:+ t) : byteLength s ≤ byteLength t := by
  obtain ⟨front, rfl⟩ := h
  rw [byteLength_append]
  exact Nat.le_add_left _ _

theorem byteLength_lt_of_suffix {s t : List Char} (h : s <:+ t) (hlt : s.length < t.length) :
    byteLength s < byteLength t := by
  obtain ⟨front, rfl⟩ := h
  have hfront : 0 < byteLength front := by
    apply byteLength_pos
    rintro rfl
    exact Nat.lt_irrefl _ hlt
  rw [byteLength_append]
  omega

theorem byteLength_takeWhile_add (p : Char → Bool) (s : List Char) :
    byteLength (s.takeWhile p) + byteLength (s.dropWhile p) = byteLength s := by
  rw [← byteLength_append, List.takeWhile_append_dropWhile]

theorem splitBytes?_append (front r : List Char) :
    splitBytes? (byteLength front) (front ++ r) = some (front, r) := by
  induction front with
  | nil => rw [byteLength_nil, splitBytes?, List.nil_append]
  | cons c front ih =>
    obtain ⟨n, hn⟩ : ∃ n, byteLength (c :: front) = n + 1 :=
      Nat.exists_eq_add_one.mpr (byteLength_pos (List.cons_ne_nil c front))
    rw [byteLength_cons] at hn
    rw [byteLength_cons, hn, List.cons_append, splitBytes?, if_pos (by omega), ← hn,
      Nat.add_sub_cancel_left, ih, Option.map_some]

theorem eq_append_of_splitBytes? {n : Nat} {s front r : List Char}
    (h : splitBytes? n s = some (front, r)) : s = front ++ r ∧ byteLength front = n := by
  fun_induction splitBytes? n s generalizing front with
  | case1 =>
    cases h
    exact ⟨rfl, rfl⟩
  | case2 => contradiction
  | case3 n c s hc ih =>
    obtain ⟨⟨front, r⟩, hsplit, heq⟩ := Option.map_eq_some_iff.mp h
    cases heq
    obtain ⟨rfl, hlength⟩ := ih hsplit
    refine ⟨rfl, ?_⟩
    rw [byteLength_cons, hlength]
    omega
  | case4 => contradiction

theorem slice?_append (before rest : List Char) (n : Nat) :
    slice? (before ++ rest) (byteLength before) (byteLength before + n) =
      (splitBytes? n rest).map Prod.fst := by
  rw [slice?, if_pos (Nat.le_add_right _ _), splitBytes?_append, Option.bind_some,
    Nat.add_sub_cancel_left]

theorem exists_slice?_iff {text : List Char} {start stop : Nat} :
    (∃ part, slice? text start stop = some part) ↔
      start ≤ stop ∧ IsBoundary text start ∧ IsBoundary text stop := by
  constructor
  · rintro ⟨part, h⟩
    unfold slice? at h
    split at h
    · next hle =>
      obtain ⟨⟨part, behind⟩, hbind, rfl⟩ := Option.map_eq_some_iff.mp h
      obtain ⟨⟨before, r⟩, hbefore, hpart⟩ := Option.bind_eq_some_iff.mp hbind
      obtain ⟨rfl, rfl⟩ := eq_append_of_splitBytes? hbefore
      obtain ⟨rfl, hlength⟩ := eq_append_of_splitBytes? hpart
      refine ⟨hle, isBoundary_iff.mpr ⟨before, _, rfl, rfl⟩, isBoundary_iff.mpr ?_⟩
      refine ⟨before ++ part, behind, (List.append_assoc ..).symm, ?_⟩
      rw [byteLength_append, hlength]
      omega
    · contradiction
  · rintro ⟨hle, hstart, hstop⟩
    obtain ⟨before, r, rfl, rfl⟩ := isBoundary_iff.mp hstart
    obtain ⟨front, behind, heq, rfl⟩ := isBoundary_iff.mp hstop
    rw [← Nat.add_sub_cancel' hle, slice?_append]
    rcases List.append_eq_append_iff.mp heq with ⟨part, rfl, rfl⟩ | ⟨back, rfl, rfl⟩
    · rw [byteLength_append, Nat.add_sub_cancel_left, splitBytes?_append]
      exact ⟨part, rfl⟩
    · rw [Nat.sub_eq_zero_of_le (by rw [byteLength_append]; exact Nat.le_add_right _ _), splitBytes?]
      exact ⟨[], rfl⟩

theorem find?_beq_cases (c : Char) (s : List Char) :
    (s.dropWhile (· != c) = [] ∧ find? (· == c) s = none) ∨
      ∃ r, s.dropWhile (· != c) = c :: r ∧ s = s.takeWhile (· != c) ++ c :: r ∧
        find? (· == c) s = some (byteLength (s.takeWhile (· != c))) := by
  induction s with
  | nil => exact .inl ⟨rfl, rfl⟩
  | cons d s ih =>
    unfold find?
    by_cases hd : d = c
    · subst hd
      exact .inr ⟨s, by simp⟩
    · have hne : (d != c) = true := bne_iff_ne.mpr hd
      rw [if_neg (by simpa using hd)]
      simp only [List.dropWhile_cons, List.takeWhile_cons, hne, if_true]
      rcases ih with ⟨hdrop, hfind⟩ | ⟨r, hdrop, hsplit, hfind⟩
      · exact .inl ⟨hdrop, by rw [hfind, Option.map_none]⟩
      · refine .inr ⟨r, hdrop, congrArg (d :: ·) hsplit, ?_⟩
        rw [hfind, Option.map_some, byteLength_cons]

/-- A row of characters ends where the first other one is found. -/
theorem getD_find?_not (p : Char → Bool) (s : List Char) :
    (find? (!p ·) s).getD (byteLength s) = byteLength (s.takeWhile p) := by
  induction s with
  | nil => rfl
  | cons c s ih =>
    unfold find?
    cases hc : p c with
    | false =>
      rw [Bool.not_false, if_pos rfl, List.takeWhile_cons_of_neg (by simp [hc])]
      rfl
    | true =>
      rw [Bool.not_true, if_neg Bool.false_ne_true, List.takeWhile_cons_of_pos hc, byteLength_cons,
        byteLength_cons, Option.getD_map, ih]

end SymbolSearch.Text
