import Mathlib
import SymbolSearch.Text.Bytes

/-!
This module contains the proof that the order of texts by their characters is the order by the bytes
of their UTF-8 form.
-/

namespace SymbolSearch.Text

open String

theorem ofNat_cons_lt {m n : Nat} {r s : List UInt8} (h : m < n ∨ m = n ∧ r < s) (hn : n < 256) :
    UInt8.ofNat m :: r < UInt8.ofNat n :: s := by
  rw [List.cons_lt_cons_iff]
  rcases h with h | ⟨rfl, h⟩
  · left
    rw [UInt8.lt_iff_toNat_lt, UInt8.toNat_ofNat', UInt8.toNat_ofNat']
    omega
  · right
    exact ⟨rfl, h⟩

theorem div_lt_or_mod_lt {m n : Nat} (unit : Nat) (h : m < n) :
    m / unit < n / unit ∨ m / unit = n / unit ∧ m % unit < n % unit := by
  have hle : m / unit ≤ n / unit := Nat.div_le_div_right (Nat.le_of_lt h)
  have hm := Nat.div_add_mod m unit
  have hn := Nat.div_add_mod n unit
  rcases Nat.lt_or_eq_of_le hle with hlt | heq
  · left
    exact hlt
  · right
    rw [heq] at hm
    omega

/--
The last `count` bytes of a character that takes more than `count` bytes. Each holds six bits of the
character's number.
-/
def continuation : Nat → Nat → List UInt8
  | 0, _ => []
  | count + 1, n => .ofNat (n / 64 ^ count % 64 + 0x80) :: continuation count n

theorem continuation_append_lt {count m n : Nat} (h : m % 64 ^ count < n % 64 ^ count)
    (r s : List UInt8) : continuation count m ++ r < continuation count n ++ s := by
  induction count with
  | zero => simp [Nat.mod_one] at h
  | succ count ih =>
    have hdigit := div_lt_or_mod_lt (64 ^ count) h
    rw [Nat.pow_succ, Nat.mod_mul_right_div_self, Nat.mod_mul_right_div_self,
      Nat.mod_mul_right_mod, Nat.mod_mul_right_mod] at hdigit
    apply ofNat_cons_lt
    · rcases hdigit with hlt | ⟨heq, hlt⟩
      · left
        omega
      · right
        exact ⟨by rw [heq], ih hlt⟩
    · omega

theorem lead_append_lt (count width mark : Nat) {m n : Nat} (h : m < n)
    (hn : n / 64 ^ count < width) (hmark : width + mark ≤ 256) (r s : List UInt8) :
    UInt8.ofNat (m / 64 ^ count % width + mark) :: (continuation count m ++ r) <
      UInt8.ofNat (n / 64 ^ count % width + mark) :: (continuation count n ++ s) := by
  have hle : m / 64 ^ count ≤ n / 64 ^ count := Nat.div_le_div_right (Nat.le_of_lt h)
  -- The first byte holds the mark of the length and what the others have no room for.
  rw [Nat.mod_eq_of_lt hn, Nat.mod_eq_of_lt (Nat.lt_of_le_of_lt hle hn)]
  apply ofNat_cons_lt
  · rcases div_lt_or_mod_lt (64 ^ count) h with hlt | ⟨heq, hlt⟩
    · left
      omega
    · right
      exact ⟨by rw [heq], continuation_append_lt hlt r s⟩
  · omega

theorem utf8EncodeChar_append_lt {c d : Char} (h : c < d) (r s : List UInt8) :
    utf8EncodeChar c ++ r < utf8EncodeChar d ++ s := by
  have hlt : c.val.toNat < d.val.toNat := h
  have hd : d.val.toNat < 0x110000 := by
    have := d.valid
    simp only [UInt32.isValidChar, Nat.isValidChar] at this
    omega
  unfold utf8EncodeChar
  generalize c.val.toNat = m at *
  generalize d.val.toNat = n at *
  dsimp only
  repeat' split
  -- A character before another one is not longer, which leaves ten of sixteen cases. The first
  -- bytes decide those in which it is shorter.
  all_goals first | omega | skip
  · apply ofNat_cons_lt <;> omega
  · apply ofNat_cons_lt <;> omega
  · apply ofNat_cons_lt <;> omega
  · apply ofNat_cons_lt <;> omega
  · have := lead_append_lt 1 32 0xC0 hlt (by omega) (by omega) r s
    simpa [continuation] using this
  · apply ofNat_cons_lt <;> omega
  · apply ofNat_cons_lt <;> omega
  · have := lead_append_lt 2 16 0xE0 hlt (by omega) (by omega) r s
    simpa [continuation] using this
  · apply ofNat_cons_lt <;> omega
  · have := lead_append_lt 3 8 0xF0 hlt (by omega) (by omega) r s
    simpa [continuation] using this

theorem flatMap_utf8EncodeChar_lt {s t : List Char} (h : s < t) :
    s.flatMap utf8EncodeChar < t.flatMap utf8EncodeChar := by
  induction s generalizing t with
  | nil =>
    cases t with
    | nil => exact absurd h (List.lt_irrefl _)
    | cons d t =>
      obtain ⟨b, bytes, hbytes⟩ := List.exists_cons_of_ne_nil (utf8EncodeChar_ne_nil (c := d))
      rw [List.flatMap_cons, hbytes]
      apply List.nil_lt_cons _ _
  | cons c s ih =>
    cases t with
    | nil => exact absurd h (List.not_lt_nil _)
    | cons d t =>
      rw [List.flatMap_cons, List.flatMap_cons]
      rcases List.cons_lt_cons_iff.mp h with hlt | ⟨rfl, hlt⟩
      · apply utf8EncodeChar_append_lt hlt _ _
      · apply List.append_left_lt (ih hlt)

theorem toUTF8_data_toList (text : String) :
    text.toUTF8.data.toList = text.toList.flatMap utf8EncodeChar := by
  have hbytes : text.toByteArray = text.toList.utf8Encode := by
    rw [← toByteArray_ofList, ofList_toList]
  rw [toUTF8_eq_toByteArray, hbytes, List.utf8Encode, List.toList_data_toByteArray]

theorem lt_iff_toUTF8_lt {s t : String} :
    s < t ↔ s.toUTF8.data.toList < t.toUTF8.data.toList := by
  rw [toUTF8_data_toList, toUTF8_data_toList, String.lt_iff]
  constructor
  · apply flatMap_utf8EncodeChar_lt
  · intro h
    apply Decidable.byContradiction
    intro hnot
    by_cases hgt : t.toList < s.toList
    · apply List.lt_asymm h (flatMap_utf8EncodeChar_lt hgt)
    · have heq := List.le_antisymm (List.not_lt.mp hgt) (List.not_lt.mp hnot)
      rw [heq] at h
      apply List.lt_irrefl _ h

end SymbolSearch.Text
