import SymbolSearch.Proofs.Toml.Layout

/-!
This module contains the proof that strings and names are read as what is written.
-/

namespace SymbolSearch.Toml

open Literal (HexDigits)
open Text (Stops)

theorem escape_letter {name c : Char} (h : (name, c) ∈ letterEscapes) (s : List Char) :
    escape (name :: s) = some (c, s) := by
  simp only [letterEscapes, List.mem_cons, Prod.mk.injEq, List.not_mem_nil, or_false] at h
  rcases h with ⟨rfl, rfl⟩ | ⟨rfl, rfl⟩ | ⟨rfl, rfl⟩ | ⟨rfl, rfl⟩ | ⟨rfl, rfl⟩ | ⟨rfl, rfl⟩ | ⟨rfl, rfl⟩
  all_goals rfl

theorem hexScalar_append {c : Char} (hex : HexDigits c.toNat) {count : Nat}
    (h : hex.digits.length = count) (s : List Char) :
    hexScalar count (hex.digits ++ s) = some (c, s) := by
  unfold hexScalar
  rw [List.take_left' h, List.drop_left' h]
  simp [h, hex.all, hex.value, Text.scalar?_toNat]

theorem lineString_quote (quote : Char) (s read : List Char) :
    lineString quote (quote :: s) read = some (.ofList read.reverse, s) := by
  rw [lineString, if_pos rfl]

theorem lineString_raw {quote c : Char} (hquote : c ≠ quote) (hbackslash : ¬(c = '\\' ∧ quote = '"'))
    (hprintable : isPrintable c) (s read : List Char) :
    lineString quote (c :: s) read = lineString quote s (c :: read) := by
  rw [lineString, if_neg hquote, if_neg hbackslash, if_pos hprintable]

theorem lineString_escape {c : Char} {s r : List Char} (h : escape s = some (c, r))
    (read : List Char) :
    lineString '"' ('\\' :: s) read = lineString '"' r (c :: read) := by
  rw [lineString, if_neg (by decide), if_pos ⟨rfl, rfl⟩]
  split
  · next hnone =>
    rw [h] at hnone
    contradiction
  · next hsome =>
    rw [h] at hsome
    cases hsome
    rfl

theorem Spells.lineString_append {c : Char} {text : List Char} (h : Spells c text)
    (s read : List Char) : lineString '"' (text ++ s) read = lineString '"' s (c :: read) := by
  cases h with
  | raw hprintable hquote hbackslash =>
    exact lineString_raw hquote (fun h => hbackslash h.1) hprintable s read
  | letter h => exact lineString_escape (escape_letter h s) read
  | fourDigits hex h =>
    have hescape : escape ('u' :: (hex.digits ++ s)) = some (c, s) := hexScalar_append hex h s
    exact lineString_escape hescape read
  | eightDigits hex h =>
    have hescape : escape ('U' :: (hex.digits ++ s)) = some (c, s) := hexScalar_append hex h s
    exact lineString_escape hescape read

theorem Body.lineString_append {chars text : List Char} (h : Body chars text) (s read : List Char) :
    lineString '"' (text ++ s) read = some (.ofList (read.reverse ++ chars), s) := by
  induction h generalizing read with
  | close =>
    rw [List.append_nil]
    exact lineString_quote '"' s read
  | @char c chars text rest h hrest ih =>
    rw [List.append_assoc, h.lineString_append, ih, List.reverse_cons, List.append_assoc,
      List.singleton_append]

theorem lineString_literal_append {chars : List Char}
    (h : chars.all fun c => isPrintable c && c != '\'') (s read : List Char) :
    lineString '\'' (chars ++ '\'' :: s) read = some (.ofList (read.reverse ++ chars), s) := by
  induction chars generalizing read with
  | nil =>
    rw [List.append_nil]
    exact lineString_quote '\'' s read
  | cons c chars ih =>
    simp only [List.all_cons, Bool.and_eq_true, bne_iff_ne] at h
    obtain ⟨⟨hprintable, hquote⟩, hrest⟩ := h
    rw [List.cons_append, lineString_raw hquote (by simp) hprintable]
    rw [ih (by simpa using hrest), List.reverse_cons, List.append_assoc, List.singleton_append]

theorem lineString_literal_self {value : String}
    (h : value.toList.all fun c => isPrintable c && c != '\'') (s : List Char) :
    lineString '\'' ((value.toList ++ ['\'']) ++ s) [] = some (value, s) := by
  rw [List.append_assoc, List.singleton_append, lineString_literal_append h, List.reverse_nil,
    List.nil_append, String.ofList_toList]

theorem Body.lineString_self {value : String} {text : List Char} (h : Body value.toList text)
    (s : List Char) : lineString '"' (text ++ s) [] = some (value, s) := by
  rw [h.lineString_append, List.reverse_nil, List.nil_append, String.ofList_toList]

theorem take_two_ne_of_ne {quote c : Char} (hc : c ≠ quote) (s : List Char) :
    (c :: s).take 2 ≠ [quote, quote] := by
  simp [hc]

theorem take_two_ne_of_stops {quote : Char} {s : List Char} (hs : Stops (· == quote) s) :
    (quote :: s).take 2 ≠ [quote, quote] := by
  cases s with
  | nil => simp
  | cons c s =>
    have hc := hs c rfl
    simpa using hc

theorem Spells.text_eq_cons {c : Char} {text : List Char} (h : Spells c text) :
    ∃ d r, text = d :: r ∧ d ≠ '"' := by
  cases h with
  | raw _ hquote _ => exact ⟨_, _, rfl, hquote⟩
  | letter _ => exact ⟨_, _, rfl, by decide⟩
  | fourDigits _ _ => exact ⟨_, _, rfl, by decide⟩
  | eightDigits _ _ => exact ⟨_, _, rfl, by decide⟩

/--
A string within one line is not taken for one over several lines. Behind an empty string this takes
that no quote follows.
-/
theorem Body.take_two_ne {chars text s : List Char} (h : Body chars text)
    (hs : Stops (· == '"') s) : (text ++ s).take 2 ≠ ['"', '"'] := by
  cases h with
  | close => exact take_two_ne_of_stops hs
  | char hc hrest =>
    obtain ⟨d, r, rfl, hd⟩ := hc.text_eq_cons
    exact take_two_ne_of_ne hd _

theorem literal_take_two_ne {chars s : List Char}
    (h : chars.all fun c => isPrintable c && c != '\'') (hs : Stops (· == '\'') s) :
    ((chars ++ ['\'']) ++ s).take 2 ≠ ['\'', '\''] := by
  cases chars with
  | nil => exact take_two_ne_of_stops hs
  | cons c chars =>
    simp only [List.all_cons, Bool.and_eq_true, bne_iff_ne] at h
    exact take_two_ne_of_ne h.1.2 _

theorem Body.quotedString_append {value : String} {text s : List Char} (h : Body value.toList text)
    (hs : Stops (· == '"') s) : quotedString '"' (text ++ s) = some (value, s) := by
  unfold quotedString
  rw [if_neg (h.take_two_ne hs), h.lineString_self]

theorem quotedString_literal_append {value : String} {s : List Char}
    (h : value.toList.all fun c => isPrintable c && c != '\'') (hs : Stops (· == '\'') s) :
    quotedString '\'' ((value.toList ++ ['\'']) ++ s) = some (value, s) := by
  unfold quotedString
  rw [if_neg (literal_take_two_ne h hs), lineString_literal_self h]

/--
The characters with which names start.
-/
def startsName (c : Char) : Bool :=
  isBareChar c || c == '"' || c == '\''

theorem WritesString.text_eq_cons {value : String} {text : List Char} (h : WritesString value text) :
    ∃ c r, text = c :: r ∧ startsName c := by
  cases h with
  | literal _ => exact ⟨_, _, rfl, rfl⟩
  | basic _ => exact ⟨_, _, rfl, rfl⟩

theorem WritesName.text_eq_cons {name : String} {text : List Char} (h : WritesName name text) :
    ∃ c r, text = c :: r ∧ startsName c := by
  cases h with
  | bare hne h =>
    obtain ⟨c, r, hname⟩ := List.exists_cons_of_ne_nil hne
    rw [hname, List.all_cons, Bool.and_eq_true] at h
    refine ⟨c, r, hname, ?_⟩
    unfold startsName
    rw [h.1]
    rfl
  | quoted h => exact h.text_eq_cons

theorem WritesName.readName_append {name : String} {text s : List Char} (h : WritesName name text)
    (hs : Stops isBareChar s) : readName (text ++ s) = some (name, s) := by
  cases h with
  | bare hne h =>
    obtain ⟨c, r, hname⟩ := List.exists_cons_of_ne_nil hne
    rw [hname, List.all_cons, Bool.and_eq_true] at h
    have hrow := List.all_eq_true.mp h.2
    rw [hname, List.cons_append, readName, if_pos h.1, Text.takeWhile_append_of_stops hrow hs,
      Text.dropWhile_append_of_stops hrow hs, ← hname, String.ofList_toList]
    all_goals
      rintro rfl
      exact absurd h.1 (by decide)
  | quoted h =>
    cases h with
    | literal h => exact lineString_literal_self h s
    | basic h => exact h.lineString_self s

end SymbolSearch.Toml
