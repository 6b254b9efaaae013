import SymbolSearch.Proofs.Text.Numeral
import SymbolSearch.Proofs.Toml.Key

/-!
This module contains the proof that values are read as what is written.
-/

namespace SymbolSearch.Toml

open Text (Stops)

theorem isDigitIn_ten_of_isDigit {c : Char} (h : c.isDigit) : Text.isDigitIn 10 c := by
  have := Text.toNat_of_isDigit h
  unfold Text.isDigitIn
  rw [Text.digitValue?_of_isDigit h]
  simp only [Option.any_some, decide_eq_true_eq]
  omega

theorem isGrouped_of_all_isDigit {digits : List Char} (hne : digits ≠ []) (h : digits.all Char.isDigit) :
    isGrouped 10 digits := by
  fun_induction isGrouped 10 digits with
  | case1 => contradiction
  | case2 c =>
    apply isDigitIn_ten_of_isDigit
    simpa using h
  | case3 c r ih =>
    simp [Char.isDigit] at h
  | case4 c r hr hunderscore ih =>
    rw [List.all_cons, Bool.and_eq_true] at h
    rw [Bool.and_eq_true]
    exact ⟨isDigitIn_ten_of_isDigit h.1, ih hr h.2⟩

theorem grouped?_toDigits (n : Nat) : grouped? 10 (Nat.toDigits 10 n) = some n := by
  have hall := Text.all_isDigit_toDigits n
  have hfilter : (Nat.toDigits 10 n).filter (· != '_') = Nat.toDigits 10 n := by
    rw [List.filter_eq_self]
    intro c hc
    rw [bne_iff_ne]
    rintro rfl
    exact absurd (List.all_eq_true.mp hall _ hc) (by decide)
  unfold grouped?
  rw [if_pos (isGrouped_of_all_isDigit Nat.toDigits_ne_nil hall), hfilter, Text.numeral_toDigits]

theorem decimal?_toDigits (n : Nat) : decimal? (Nat.toDigits 10 n) = some n := by
  have hzero : ¬((Nat.toDigits 10 n).head? = some '0' ∧ (Nat.toDigits 10 n).length ≠ 1) := by
    rintro ⟨hhead, hlength⟩
    cases Text.eq_zero_of_head?_toDigits hhead
    contradiction
  unfold decimal?
  rw [if_neg hzero, grouped?_toDigits]

theorem integer?_toDigits (n : Nat) : integer? (Nat.toDigits 10 n) = some (n : Int) := by
  have hall := Text.all_isDigit_toDigits n
  unfold integer?
  split
  -- All other spellings have a letter or a sign among their first two characters, which is no digit.
  case h_6 => rw [decimal?_toDigits]; rfl
  all_goals
    next heq =>
      rw [heq] at hall
      simp [Char.isDigit] at hall

/--
The characters that go on with a number or a string.
-/
def continuesValue (c : Char) : Bool :=
  isBareValueChar c || c == '"' || c == '\''

theorem isBareValueChar_of_isDigit {c : Char} (h : c.isDigit) : isBareValueChar c := by
  simp [isBareValueChar, isBareChar, Char.isAlphanum, h]

theorem readValue_toDigits_append (n : Nat) {s : List Char} (hs : Stops isBareValueChar s)
    (part? : Option ValueReader) :
    readValue part? (Nat.toDigits 10 n ++ s) = some (.integer n, s) := by
  have hall := Text.all_isDigit_toDigits n
  obtain ⟨c, r, hdigits⟩ := List.exists_cons_of_ne_nil (Nat.toDigits_ne_nil (b := 10) (n := n))
  have hread := integer?_toDigits n
  rw [hdigits] at hread hall ⊢
  rw [List.all_cons, Bool.and_eq_true] at hall
  have hrow : ∀ d ∈ r, isBareValueChar d := by
    intro d hd
    exact isBareValueChar_of_isDigit (List.all_eq_true.mp hall.2 d hd)
  rw [List.cons_append, readValue, Text.takeWhile_append_of_stops hrow hs, hread,
    Text.dropWhile_append_of_stops hrow hs]
  all_goals
    intros
    subst_vars
    exact absurd hall.1 (by decide)

theorem WritesScalar.readValue_append {value : Value} {text s : List Char} (h : WritesScalar value text)
    (hs : Stops continuesValue s) (part? : Option ValueReader) :
    readValue part? (text ++ s) = some (value, s) := by
  cases h with
  | integer n =>
    apply readValue_toDigits_append n
    exact hs.mono (by simp +contextual [continuesValue])
  | string h =>
    cases h with
    | literal h =>
      rw [List.cons_append, readValue, quotedString_literal_append h]
      · rfl
      · exact hs.mono (by simp +contextual [continuesValue])
    | basic h =>
      rw [List.cons_append, readValue, h.quotedString_append]
      · rfl
      · exact hs.mono (by simp +contextual [continuesValue])

theorem WritesScalar.read_append {value : Value} {text s : List Char} (h : WritesScalar value text)
    (hs : Stops continuesValue s) (depth : Nat) :
    (valueReader depth).read (text ++ s) = some (value, s) := by
  cases depth with
  | zero => exact h.readValue_append hs none
  | succ depth => exact h.readValue_append hs (some (valueReader depth))

theorem WritesScalar.text_eq_cons {value : Value} {text : List Char} (h : WritesScalar value text) :
    ∃ c r, text = c :: r ∧ startsName c := by
  cases h with
  | integer n =>
    have hall := Text.all_isDigit_toDigits n
    obtain ⟨c, r, hdigits⟩ := List.exists_cons_of_ne_nil (Nat.toDigits_ne_nil (b := 10) (n := n))
    rw [hdigits, List.all_cons, Bool.and_eq_true] at hall
    refine ⟨c, r, hdigits, startsName_of_isBareChar ?_⟩
    simp [isBareChar, Char.isAlphanum, hall.1]
  | string h => exact h.text_eq_cons

theorem continuesValue_eq_false_of_startsLayout (c : Char) (h : startsLayout c) :
    continuesValue c = false := by
  simp only [startsLayout, isBlank, Bool.or_eq_true, beq_iff_eq] at h
  rcases h with (((rfl | rfl) | rfl) | rfl) | rfl <;> rfl

theorem readItems_close {before : List Char} (hbefore : Layout before) (item : ValueReader)
    (s : List Char) (items : List Value) :
    readItems item (before ++ ']' :: s) items = some (items.reverse, s) := by
  have hskip : skipLayout (before ++ ']' :: s) = ']' :: s :=
    hbefore.skipLayout_append_of_stops (.cons rfl)
  rw [readItems]
  split
  · next heq =>
    rw [hskip] at heq
    cases heq
    rfl
  · next hne => exact absurd hskip (hne s)

/--
One step: an item and what stands behind it.
-/
theorem readItems_item {item : ValueReader} {value : Value} {before text s next : List Char} {c : Char}
    (hbefore : Layout before) (h : WritesScalar value text)
    (hread : item.read (text ++ s) = some (value, s)) (hbehind : skipLayout s = c :: next)
    (items : List Value) :
    readItems item (before ++ (text ++ s)) items =
      if c = ',' then readItems item next (value :: items)
      else if c = ']' then some ((value :: items).reverse, next)
      else none := by
  obtain ⟨d, r, rfl, hd⟩ := h.text_eq_cons
  have hskip : skipLayout (before ++ (d :: r ++ s)) = d :: r ++ s :=
    hbefore.skipLayout_append_of_stops (.cons (startsLayout_eq_false_of_startsName d hd))
  rw [readItems]
  split
  · next heq =>
    rw [hskip] at heq
    cases heq
    contradiction
  · rw [hskip]
    split
    · next hnone =>
      rw [hread] at hnone
      contradiction
    · next hsome =>
      rw [hread] at hsome
      cases hsome
      split
      · next heq =>
        cases hbehind.symm.trans heq
        rw [if_pos rfl]
      · next heq =>
        cases hbehind.symm.trans heq
        rw [if_neg (by decide), if_pos rfl]
      · next hcomma hclose =>
        rw [if_neg, if_neg]
        · rintro rfl
          exact hclose next hbehind
        · rintro rfl
          exact hcomma next hbehind

theorem WritesItems.readItems_append {values : List Value} {text : List Char}
    (h : WritesItems values text) (depth : Nat) (s : List Char) (items : List Value) :
    readItems (valueReader depth) (text ++ s) items = some (items.reverse ++ values, s) := by
  induction h generalizing items with
  | close hbefore =>
    rw [List.append_assoc, List.singleton_append, readItems_close hbefore, List.append_nil]
  | @last value before text behind hbefore h hbehind =>
    have hstops : Stops continuesValue (behind ++ ']' :: s) :=
      hbehind.stops_append continuesValue_eq_false_of_startsLayout (.cons rfl)
    have hskip : skipLayout (behind ++ ']' :: s) = ']' :: s :=
      hbehind.skipLayout_append_of_stops (.cons rfl)
    simp only [List.append_assoc, List.singleton_append]
    rw [readItems_item hbefore h (h.read_append hstops depth) hskip, if_neg (by decide), if_pos rfl,
      List.reverse_cons]
  | @more value values before text behind rest hbefore h hbehind hrest ih =>
    have hstops : Stops continuesValue (behind ++ ',' :: (rest ++ s)) :=
      hbehind.stops_append continuesValue_eq_false_of_startsLayout (.cons rfl)
    have hskip : skipLayout (behind ++ ',' :: (rest ++ s)) = ',' :: (rest ++ s) :=
      hbehind.skipLayout_append_of_stops (.cons rfl)
    simp only [List.append_assoc, List.cons_append]
    rw [readItems_item hbefore h (h.read_append hstops depth) hskip, if_pos rfl, ih, List.reverse_cons,
      List.append_assoc, List.singleton_append]

theorem WritesValue.read_append {value : Value} {text s : List Char} (h : WritesValue value text)
    (hs : Stops continuesValue s) : (valueReader maxDepth).read (text ++ s) = some (value, s) := by
  cases h with
  | scalar h => exact h.read_append hs maxDepth
  | @array items text h =>
    have hread : (valueReader maxDepth).read ('[' :: (text ++ s)) =
        mapRead .array (readItems (valueReader 79) (text ++ s) []) := rfl
    rw [List.cons_append, hread, h.readItems_append]
    rfl

theorem WritesValue.stops_isBlank {value : Value} {text : List Char} (h : WritesValue value text)
    (s : List Char) : Stops isBlank (text ++ s) := by
  cases h with
  | scalar h =>
    obtain ⟨c, r, rfl, hc⟩ := h.text_eq_cons
    exact stops_isBlank_of_startsLayout (.cons (startsLayout_eq_false_of_startsName c hc))
  | array h => exact .cons rfl

end SymbolSearch.Toml
