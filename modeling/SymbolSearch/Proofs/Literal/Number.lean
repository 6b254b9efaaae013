import SymbolSearch.Proofs.Literal.Grammar
import SymbolSearch.Proofs.Literal.Token
import SymbolSearch.Proofs.Text.Numeral

/-!
This module contains the proof that the texts that are read as numbers are those that the grammar has
for numbers.
-/

namespace SymbolSearch.Literal

open Text (Stops)

theorem isFinite_iff {digits : List Char} (hall : digits.all Char.isDigit)
    (hfirst : digits.head? ≠ some '0') (exponent : Int) :
    isFinite (Text.numeral 10 digits) digits.length exponent ↔
      Text.numeral 10 digits * 10 ^ exponent.toNat < overflow * 10 ^ (-exponent).toNat := by
  have hlow : 10 ^ 300 ≤ overflow := by decide +kernel
  have hhigh : overflow ≤ 10 ^ 320 := by decide +kernel
  unfold isFinite
  split
  · next hsmall =>
    simp only [true_iff]
    rcases hsmall with hzero | hsmall
    · rw [hzero, Nat.zero_mul]
      apply Nat.mul_pos (Nat.lt_of_lt_of_le (Nat.pow_pos (by decide)) hlow) (Nat.pow_pos (by decide))
    · calc Text.numeral 10 digits * 10 ^ exponent.toNat
          < 10 ^ digits.length * 10 ^ exponent.toNat :=
            Nat.mul_lt_mul_of_pos_right (Text.numeral_lt_pow hall) (Nat.pow_pos (by decide))
        _ = 10 ^ (digits.length + exponent.toNat) := (pow_add ..).symm
        _ ≤ 10 ^ (300 + (-exponent).toNat) := Nat.pow_le_pow_right (by omega) (by omega)
        _ = 10 ^ 300 * 10 ^ (-exponent).toNat := pow_add 10 300 _
        _ ≤ overflow * 10 ^ (-exponent).toNat := Nat.mul_le_mul_right _ hlow
  · next hsmall =>
    split
    · next hlarge =>
      simp only [Bool.false_eq_true, false_iff, Nat.not_lt]
      cases digits with
      | nil => exact absurd (.inl rfl) hsmall
      | cons c s =>
        rw [List.all_cons, Bool.and_eq_true] at hall
        rw [List.length_cons] at hlarge
        have hc : c ≠ '0' := by simpa using hfirst
        calc overflow * 10 ^ (-exponent).toNat
            ≤ 10 ^ 320 * 10 ^ (-exponent).toNat := Nat.mul_le_mul_right _ hhigh
          _ = 10 ^ (320 + (-exponent).toNat) := (pow_add ..).symm
          _ ≤ 10 ^ (s.length + exponent.toNat) := Nat.pow_le_pow_right (by omega) (by omega)
          _ = 10 ^ s.length * 10 ^ exponent.toNat := pow_add ..
          _ ≤ Text.numeral 10 (c :: s) * 10 ^ exponent.toNat :=
            Nat.mul_le_mul_right _ (Text.pow_le_numeral_cons hall.1 hc s)
    · rw [decide_eq_true_eq]
      rfl

theorem splitSign_eq (s : List Char) :
    ∃ sign : Sign, s = sign.text ++ (splitSign s).2 ∧ (splitSign s).1 = decide (sign = .minus) := by
  unfold splitSign
  split
  · exact ⟨.minus, rfl, rfl⟩
  · exact ⟨.plus, rfl, rfl⟩
  · exact ⟨.none, rfl, rfl⟩

theorem splitSign_append (sign : Sign) {digits : List Char} (hne : digits ≠ [])
    (hall : digits.all Char.isDigit) :
    splitSign (sign.text ++ digits) = (decide (sign = .minus), digits) := by
  cases sign with
  | minus => rfl
  | plus => rfl
  | none =>
    obtain ⟨c, s, rfl⟩ := List.exists_cons_of_ne_nil hne
    apply splitSign_of_isDigit
    apply List.all_eq_true.mp hall c (List.mem_cons_self ..)

theorem integer?_eq_some_iff {s : List Char} {n : Int} :
    integer? s = some n ↔
      ∃ sign : Sign, ∃ digits, digits ≠ [] ∧ digits.all Char.isDigit ∧ s = sign.text ++ digits ∧
        n = signed (sign = .minus) (Text.numeral 10 digits) := by
  constructor
  · intro h
    obtain ⟨sign, htext, hnegative⟩ := splitSign_eq s
    unfold integer? at h
    dsimp only at h
    split at h
    · next hdigits =>
      rw [Bool.not_eq_true', List.isEmpty_eq_false_iff] at hdigits
      cases h
      exact ⟨sign, _, hdigits.1, hdigits.2, htext, by rw [hnegative]⟩
    · contradiction
  · rintro ⟨sign, digits, hne, hall, rfl, rfl⟩
    unfold integer?
    rw [splitSign_append sign hne hall]
    simp [hne, hall]

theorem exponent?_eq_some_iff {s : List Char} {n : Int} :
    exponent? s = some n ↔
      ∃ exponent? : Option Exponent, s = exponent?.elim [] Exponent.text ∧
        n = exponent?.elim 0 Exponent.value := by
  constructor
  · intro h
    unfold exponent? at h
    split at h
    · cases h
      exact ⟨none, rfl, rfl⟩
    · obtain ⟨sign, digits, hne, hall, rfl, rfl⟩ := integer?_eq_some_iff.mp h
      exact ⟨some ⟨'e', sign, digits, .inl rfl, hne, hall⟩, rfl, rfl⟩
    · obtain ⟨sign, digits, hne, hall, rfl, rfl⟩ := integer?_eq_some_iff.mp h
      exact ⟨some ⟨'E', sign, digits, .inr rfl, hne, hall⟩, rfl, rfl⟩
    · contradiction
  · rintro ⟨exponent, rfl, rfl⟩
    cases exponent with
    | none => rfl
    | some exponent =>
      have hinteger := integer?_eq_some_iff.mpr
        ⟨exponent.sign, exponent.digits, exponent.hne, exponent.hall, rfl, rfl⟩
      rcases exponent with ⟨letter, sign, digits, rfl | rfl, hne, hall⟩
      · exact hinteger
      · exact hinteger

theorem Exponent.stops_isDigit (exponent? : Option Exponent) :
    Stops Char.isDigit (exponent?.elim [] Exponent.text) := by
  cases exponent? with
  | none => exact .nil
  | some exponent =>
    rcases exponent with ⟨letter, sign, digits, rfl | rfl, hne, hall⟩
    · exact .cons rfl
    · exact .cons rfl

/--
The digits behind a point, if there is one, and what follows them.
-/
def splitPoint : List Char → Option (List Char) × List Char
  | '.' :: r => (some (r.takeWhile Char.isDigit), r.dropWhile Char.isDigit)
  | r => (none, r)

theorem head?_dropWhile_zero_ne (s : List Char) : (s.dropWhile (· == '0')).head? ≠ some '0' := by
  intro hhead
  have hstops := Text.stops_dropWhile (p := (· == '0')) s '0' hhead
  contradiction

/--
The decimal with a sign, the given digits in front of and behind its point, and an exponent.
-/
def decimalOf? (negative : Bool) (whole fraction : List Char) (shift : Int) : Option Value :=
  let digits := whole ++ fraction
  let exponent := shift - fraction.length
  if digits ≠ [] ∧
      Text.numeral 10 digits * 10 ^ exponent.toNat < overflow * 10 ^ (-exponent).toNat then
    some (.decimal (signed negative (Text.numeral 10 digits)) exponent)
  else
    none

theorem decimalOf?_eq {negative : Bool} {whole fraction : List Char} (hwhole : whole.all Char.isDigit)
    (hfraction : fraction.all Char.isDigit) (shift : Int) :
    decimalOf? negative whole fraction shift =
      let digits := (whole ++ fraction).dropWhile (· == '0')
      let significand := Text.numeral 10 digits
      let exponent := shift - fraction.length
      if (!whole.isEmpty || !fraction.isEmpty) && isFinite significand digits.length exponent then
        some (.decimal (signed negative significand) exponent)
      else none := by
  have hall : ((whole ++ fraction).dropWhile (· == '0')).all Char.isDigit := by
    apply List.all_eq_true.mpr
    intro c hc
    rcases List.mem_append.mp ((List.dropWhile_sublist _).mem hc) with hc | hc
    · apply List.all_eq_true.mp hwhole c hc
    · apply List.all_eq_true.mp hfraction c hc
  have hfinite := isFinite_iff hall (head?_dropWhile_zero_ne _) (shift - fraction.length)
  rw [Text.numeral_dropWhile_zero] at hfinite
  have hdigits : (!whole.isEmpty || !fraction.isEmpty) ↔ whole ++ fraction ≠ [] := by
    cases whole <;> cases fraction <;> simp
  unfold decimalOf?
  dsimp only
  rw [Text.numeral_dropWhile_zero]
  simp only [Bool.and_eq_true, hfinite, hdigits]

theorem decimal?_eq (s : List Char) :
    decimal? s =
      let (negative, s) := splitSign s
      let (fraction?, tail) := splitPoint (s.dropWhile Char.isDigit)
      (exponent? tail).bind
        (decimalOf? negative (s.takeWhile Char.isDigit) (fraction?.getD [])) := by
  unfold decimal?
  rcases splitSign s with ⟨negative, s⟩
  have hwhole : (s.takeWhile Char.isDigit).all Char.isDigit := List.all_takeWhile
  dsimp only
  generalize s.takeWhile Char.isDigit = whole at *
  cases s.dropWhile Char.isDigit with
  | nil => simp [splitPoint, exponent?, decimalOf?_eq hwhole List.all_nil]
  | cons c r =>
    by_cases hc : c = '.'
    · subst hc
      cases hexponent : exponent? (r.dropWhile Char.isDigit) with
      | none => simp [splitPoint, hexponent]
      | some shift => simp [splitPoint, hexponent, decimalOf?_eq hwhole List.all_takeWhile]
    · cases hexponent : exponent? (c :: r) with
      | none => simp [splitPoint, hc, hexponent]
      | some shift => simp [splitPoint, hc, hexponent, decimalOf?_eq hwhole List.all_nil]

namespace Numeral

variable (numeral : Numeral)

def afterWhole : List Char :=
  numeral.fraction?.elim [] ('.' :: ·) ++ numeral.exponent?.elim [] Exponent.text

theorem stops_afterWhole : Stops Char.isDigit numeral.afterWhole := by
  unfold afterWhole
  cases numeral.fraction? with
  | none => exact Exponent.stops_isDigit numeral.exponent?
  | some fraction => exact .cons (by decide)

theorem splitPoint_afterWhole :
    splitPoint numeral.afterWhole =
      (numeral.fraction?, numeral.exponent?.elim [] Exponent.text) := by
  unfold afterWhole
  cases hfraction : numeral.fraction? with
  | some fraction =>
    have hall := List.all_eq_true.mp (numeral.hfraction fraction hfraction)
    have hstops := Exponent.stops_isDigit numeral.exponent?
    simp only [Option.elim_some, List.cons_append, splitPoint]
    rw [Text.takeWhile_append_of_stops hall hstops, Text.dropWhile_append_of_stops hall hstops]
  | none =>
    cases numeral.exponent? with
    | none => rfl
    | some exponent => rcases exponent with ⟨letter, sign, digits, rfl | rfl, hne, hall⟩ <;> rfl

theorem splitSign_text :
    splitSign numeral.text = (numeral.negative, numeral.whole ++ numeral.afterWhole) := by
  cases hnegative : numeral.negative with
  | true => simp [text, hnegative, splitSign, afterWhole]
  | false =>
    obtain ⟨c, s, hwhole⟩ := List.exists_cons_of_ne_nil (numeral.hstart hnegative)
    have hc : c.isDigit := List.all_eq_true.mp numeral.hwhole c (by simp [hwhole])
    simp [text, hnegative, hwhole, splitSign_of_isDigit hc, afterWhole]

theorem integer?_text :
    integer? numeral.text =
      if numeral.fraction? = none ∧ numeral.exponent?.isNone then
        some (signed numeral.negative numeral.significand)
      else none := by
  unfold integer?
  rw [splitSign_text]
  dsimp only
  by_cases hwhole : numeral.fraction? = none ∧ numeral.exponent?.isNone
  · obtain ⟨hfraction, hexponent⟩ := hwhole
    rw [Option.isNone_iff_eq_none] at hexponent
    have hdigits := numeral.hdigits
    rw [hfraction, Option.getD_none, List.append_nil] at hdigits
    have hall := numeral.hwhole
    simp [afterWhole, significand, hfraction, hexponent, hdigits, hall]
  · have hne : numeral.afterWhole ≠ [] := by
      intro hnil
      apply hwhole
      simp only [afterWhole, List.append_eq_nil_iff] at hnil
      cases hfraction : numeral.fraction? <;> cases hexponent : numeral.exponent? <;>
        simp_all [Exponent.text]
    have hrest : (numeral.whole ++ numeral.afterWhole).all Char.isDigit = false := by
      rw [List.all_append, numeral.stops_afterWhole.all_eq_false hne, Bool.and_false]
    rw [if_neg hwhole, if_neg]
    rw [hrest]
    simp

theorem decimal?_text (hfinite : numeral.IsFinite) :
    decimal? numeral.text =
      some (.decimal (signed numeral.negative numeral.significand) numeral.exponent) := by
  have hstops := numeral.stops_afterWhole
  have hwhole := List.all_eq_true.mp numeral.hwhole
  rw [decimal?_eq, splitSign_text]
  dsimp only
  rw [Text.takeWhile_append_of_stops hwhole hstops, Text.dropWhile_append_of_stops hwhole hstops,
    splitPoint_afterWhole]
  dsimp only
  rw [exponent?_eq_some_iff.mpr ⟨numeral.exponent?, rfl, rfl⟩, Option.bind_some, decimalOf?, if_pos]
  · rfl
  · exact ⟨numeral.hdigits, hfinite⟩

theorem number?_text (hfinite : numeral.IsFinite) : number? numeral.text = some numeral.value := by
  unfold number? value
  rw [integer?_text, decimal?_text numeral hfinite]
  by_cases hwhole : numeral.fraction? = none ∧ numeral.exponent?.isNone
  · rw [if_pos hwhole]
    dsimp only
    simp only [hwhole, true_and]
    split <;> rfl
  · rw [if_neg hwhole, if_neg (fun h => hwhole ⟨h.1, h.2.1⟩)]

end Numeral

theorem splitPoint_eq (s : List Char) :
    s = (splitPoint s).1.elim [] ('.' :: ·) ++ (splitPoint s).2 ∧
      ∀ fraction ∈ (splitPoint s).1, fraction.all Char.isDigit := by
  unfold splitPoint
  split
  · refine ⟨by simp, ?_⟩
    intro fraction hfraction
    cases hfraction
    exact List.all_takeWhile
  · refine ⟨rfl, ?_⟩
    intro fraction hfraction
    contradiction

theorem exists_numeral_of_parts (negative : Bool) {s : List Char} {value : Value}
    (hstart : negative = false → s.takeWhile Char.isDigit ≠ [])
    (h : (exponent? (splitPoint (s.dropWhile Char.isDigit)).2).bind (decimalOf? negative
      (s.takeWhile Char.isDigit) ((splitPoint (s.dropWhile Char.isDigit)).1.getD [])) = some value) :
    ∃ numeral : Numeral, numeral.text = (if negative then ['-'] else []) ++ s ∧ numeral.IsFinite := by
  obtain ⟨hrest, hfraction⟩ := splitPoint_eq (s.dropWhile Char.isDigit)
  generalize splitPoint (s.dropWhile Char.isDigit) = point at *
  obtain ⟨shift, hshift, hvalue⟩ := Option.bind_eq_some_iff.mp h
  obtain ⟨exponent?, htail, rfl⟩ := exponent?_eq_some_iff.mp hshift
  unfold decimalOf? at hvalue
  dsimp only at hvalue
  split at hvalue
  · next hdecimal =>
    obtain ⟨hdigits, hfinite⟩ := hdecimal
    refine ⟨⟨negative, s.takeWhile Char.isDigit, point.1, exponent?, List.all_takeWhile, hfraction,
      hdigits, hstart⟩, ?_, hfinite⟩
    rw [Numeral.text, ← htail, ← hrest, List.takeWhile_append_dropWhile]
  · contradiction

theorem exists_numeral_of_decimal? {c : Char} {r : List Char} {value : Value}
    (hc : c = '-' ∨ c.isDigit) (h : decimal? (c :: r) = some value) :
    ∃ numeral : Numeral, numeral.text = c :: r ∧ numeral.IsFinite := by
  rw [decimal?_eq] at h
  rcases hc with rfl | hc
  · apply exists_numeral_of_parts true _ h
    intro hfalse
    contradiction
  · rw [splitSign_of_isDigit hc] at h
    apply exists_numeral_of_parts false _ h
    simp [hc]

theorem exists_numeral_of_integer? {c : Char} {r : List Char} {n : Int}
    (hc : c = '-' ∨ c.isDigit) (h : integer? (c :: r) = some n) :
    ∃ numeral : Numeral, numeral.text = c :: r ∧ numeral.fraction? = none ∧
      numeral.exponent? = none ∧ signed numeral.negative numeral.significand = n := by
  obtain ⟨sign, digits, hne, hall, htext, rfl⟩ := integer?_eq_some_iff.mp h
  have hdigits : digits ++ (none : Option (List Char)).getD [] ≠ [] := by simpa using hne
  refine ⟨⟨sign = .minus, digits, none, none, hall, by simp, hdigits, fun _ => hne⟩, ?_, rfl, rfl, ?_⟩
  · rw [htext]
    cases sign with
    | none => simp [Numeral.text, Sign.text]
    | minus => simp [Numeral.text, Sign.text]
    | plus =>
      cases htext
      rcases hc with hc | hc <;> contradiction
  · simp [Numeral.significand]

theorem Numeral.isFinite_of_isWord64 {numeral : Numeral} (hfraction : numeral.fraction? = none)
    (hexponent : numeral.exponent? = none)
    (h : isWord64 (signed numeral.negative numeral.significand)) : numeral.IsFinite := by
  have hlt : numeral.significand < overflow := by
    have hoverflow : 0x8000000000000000 < overflow := by decide +kernel
    have hle : numeral.significand ≤ 0x8000000000000000 := by
      cases hnegative : numeral.negative <;> simp [isWord64, signed, hnegative] at h <;> omega
    exact Nat.lt_of_le_of_lt hle hoverflow
  simpa [IsFinite, exponent, hfraction, hexponent] using hlt

/-- What starts with a minus sign or a digit is a number exactly if the grammar has it. -/
theorem number?_eq_some_iff {c : Char} {r : List Char} {value : Value} (hc : c = '-' ∨ c.isDigit) :
    number? (c :: r) = some value ↔
      ∃ numeral : Numeral, numeral.text = c :: r ∧ numeral.IsFinite ∧ numeral.value = value := by
  constructor
  · intro h
    by_cases hwhole : ∃ n, integer? (c :: r) = some n ∧ isWord64 n
    · obtain ⟨n, hinteger, hfits⟩ := hwhole
      obtain ⟨numeral, htext, hfraction, hexponent, rfl⟩ := exists_numeral_of_integer? hc hinteger
      have hfinite := Numeral.isFinite_of_isWord64 hfraction hexponent hfits
      have hnumber := numeral.number?_text hfinite
      rw [htext, h] at hnumber
      exact ⟨numeral, htext, hfinite, (Option.some.inj hnumber).symm⟩
    · have hdecimal : decimal? (c :: r) = some value := by
        unfold number? at h
        split at h
        · next n hinteger =>
          split at h
          · next hfits => exact absurd ⟨n, hinteger, hfits⟩ hwhole
          · exact h
        · exact h
      obtain ⟨numeral, htext, hfinite⟩ := exists_numeral_of_decimal? hc hdecimal
      have hnumber := numeral.number?_text hfinite
      rw [htext, h] at hnumber
      exact ⟨numeral, htext, hfinite, (Option.some.inj hnumber).symm⟩
  · rintro ⟨numeral, htext, hfinite, rfl⟩
    rw [← htext, numeral.number?_text hfinite]

theorem Numeral.all_isNumberChar (numeral : Numeral) : numeral.text.all isNumberChar := by
  have hdigits : ∀ {s : List Char}, s.all Char.isDigit → s.all isNumberChar := by
    intro s hs
    apply List.all_eq_true.mpr
    intro c hc
    simp [isNumberChar, List.all_eq_true.mp hs c hc]
  have hfraction : (numeral.fraction?.elim [] ('.' :: ·)).all isNumberChar := by
    cases hfraction : numeral.fraction? with
    | none => rfl
    | some fraction =>
      rw [Option.elim_some, List.all_cons, hdigits (numeral.hfraction fraction hfraction)]
      rfl
  have hexponent : (numeral.exponent?.elim [] Exponent.text).all isNumberChar := by
    cases numeral.exponent? with
    | none => rfl
    | some exponent =>
      have hletter : isNumberChar exponent.letter := by
        rcases exponent.hletter with hletter | hletter <;> rw [hletter] <;> rfl
      have hsign : exponent.sign.text.all isNumberChar := by
        cases exponent.sign <;> rfl
      rw [Option.elim_some, Exponent.text, List.all_cons, List.all_append, hletter, hsign,
        hdigits exponent.hall]
      rfl
  have hsign : (if numeral.negative then ['-'] else []).all isNumberChar := by
    cases numeral.negative <;> decide
  simp only [text, List.all_append, hsign, hdigits numeral.hwhole, hfraction, hexponent, Bool.and_true]

theorem Numeral.text_eq_cons (numeral : Numeral) :
    ∃ c r, numeral.text = c :: r ∧ (c = '-' ∨ c.isDigit) := by
  unfold text
  cases hnegative : numeral.negative with
  | true => exact ⟨'-', _, rfl, .inl rfl⟩
  | false =>
    obtain ⟨c, r, hwhole⟩ := List.exists_cons_of_ne_nil (numeral.hstart hnegative)
    have hc : c.isDigit := List.all_eq_true.mp numeral.hwhole c (by simp [hwhole])
    exact ⟨c, _, by rw [hwhole]; rfl, .inr hc⟩

theorem readNumber_eq_ok_iff {c : Char} {r rest : List Char} {value : Value}
    (hc : c = '-' ∨ c.isDigit) :
    readNumber c r = .ok (value, rest) ↔
      ∃ numeral : Numeral, c :: r = numeral.text ++ rest ∧ numeral.IsFinite ∧
        Stops isNumberChar rest ∧ numeral.value = value := by
  constructor
  · intro h
    unfold readNumber at h
    dsimp only at h
    split at h
    · next hnumber =>
      cases h
      obtain ⟨numeral, htext, hfinite, hvalue⟩ := (number?_eq_some_iff hc).mp hnumber
      refine ⟨numeral, ?_, hfinite, Text.stops_dropWhile r, hvalue⟩
      rw [htext, List.cons_append, List.takeWhile_append_dropWhile]
    · contradiction
  · rintro ⟨numeral, htext, hfinite, hstops, rfl⟩
    obtain ⟨d, s, hcons, hd⟩ := numeral.text_eq_cons
    have hall := numeral.all_isNumberChar
    rw [hcons, List.all_cons, Bool.and_eq_true] at hall
    rw [hcons, List.cons_append] at htext
    cases htext
    exact readNumber_append (List.all_eq_true.mp hall.2) hstops
      ((number?_eq_some_iff hc).mpr ⟨numeral, hcons, hfinite, rfl⟩)

end SymbolSearch.Literal
