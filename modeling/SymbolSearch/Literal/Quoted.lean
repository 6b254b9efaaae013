import SymbolSearch.Literal.Fault
import SymbolSearch.Text.Numeral

/-!
This module contains the reading of quoted strings and of the escapes inside them.
-/

namespace SymbolSearch.Literal

/--
The character that stands in for a number that is no Unicode scalar value.
-/
def replacement : Char :=
  '\uFFFD'

/--
The character with a number, or the replacement character if there is none.
-/
def charOfCode (n : Nat) : Char :=
  (Text.scalar? n).getD replacement

/--
Read a number of exactly `count` hexadecimal digits.
-/
def hexDigits (count : Nat) (s : List Char) : Step Nat :=
  let digits := s.take count
  if digits.length = count ∧ digits.all (Text.isDigitIn 16) then
    .ok (Text.numeral 16 digits, s.drop count)
  else
    .error ⟨.hexEscape, s⟩

/--
The number between the braces of an escape: hexadecimal digits, a plus sign allowed in front, that
fit into 32 bits.
-/
def codePoint? (body : List Char) : Option Nat :=
  let digits :=
    match body with
    | '+' :: r => r
    | _ => body
  if !digits.isEmpty ∧ digits.all (Text.isDigitIn 16) ∧ Text.numeral 16 digits < UInt32.size then
    some (Text.numeral 16 digits)
  else
    none

/--
Read the escape of a character number behind its opening brace.
-/
def bracedEscape (s : List Char) : Step Char :=
  match s.dropWhile (· != '}') with
  | [] => .error ⟨.openCodePoint, s⟩
  | _ :: r =>
    match codePoint? (s.takeWhile (· != '}')) with
    | none => .error ⟨.codePoint, s⟩
    | some n => .ok (charOfCode n, r)

def isHighSurrogate (n : Nat) : Bool :=
  0xD800 ≤ n && n < 0xDC00

def isLowSurrogate (n : Nat) : Bool :=
  0xDC00 ≤ n && n < 0xE000

/--
The character that the two halves of a surrogate pair make.
-/
def surrogatePair (high low : Nat) : Char :=
  charOfCode (0x10000 + (high - 0xD800) * 0x400 + (low - 0xDC00))

/--
Read a Unicode escape behind its `u`. The first half of a surrogate pair takes a second half that
follows at once; any half without its other one is replaced. An escape of the same kind that follows
a first half has to have four digits, whether it is the other half or not.
-/
def unicodeEscape (s : List Char) : Step Char :=
  match s with
  | '{' :: r => bracedEscape r
  | _ =>
    match hexDigits 4 s with
    | .error fault => .error fault
    | .ok (high, r) =>
      if isHighSurrogate high then
        match r with
        | '\\' :: 'u' :: next =>
          match hexDigits 4 next with
          | .error fault => .error fault
          | .ok (low, rest) =>
            if isLowSurrogate low then
              .ok (surrogatePair high low, rest)
            else
              .ok (replacement, r)
        | _ => .ok (replacement, r)
      else
        .ok (charOfCode high, r)

/--
Read an escape behind its backslash. A line break stands for nothing, so that a string can go on in
the next line, and a character without a meaning of its own stands for itself.
-/
def escape : List Char → Step (Option Char)
  | [] => .error ⟨.openEscape, []⟩
  | 'n' :: r => .ok (some '\n', r)
  | 't' :: r => .ok (some '\t', r)
  | 'r' :: r => .ok (some '\r', r)
  | 'b' :: r => .ok (some '\x08', r)
  | 'f' :: r => .ok (some '\x0c', r)
  | 'v' :: r => .ok (some '\x0b', r)
  | '0' :: r => .ok (some '\x00', r)
  | '\n' :: r => .ok (none, r)
  | '\r' :: '\n' :: r => .ok (none, r)
  | '\r' :: r => .ok (none, r)
  | 'x' :: r => mapRead (some ∘ charOfCode) (hexDigits 2 r)
  | 'u' :: r => mapRead some (unicodeEscape r)
  | c :: r => .ok (some c, r)

theorem hexDigits_length_le {count n : Nat} {s r : List Char} (h : hexDigits count s = .ok (n, r)) :
    r.length ≤ s.length := by
  unfold hexDigits at h
  dsimp only at h
  split at h
  · cases h
    rw [List.length_drop]
    exact Nat.sub_le _ _
  · contradiction

theorem bracedEscape_length_le {c : Char} {s r : List Char} (h : bracedEscape s = .ok (c, r)) :
    r.length ≤ s.length := by
  have hle : (s.dropWhile (· != '}')).length ≤ s.length := (List.dropWhile_suffix _).length_le
  unfold bracedEscape at h
  split at h
  · contradiction
  · next heq =>
    split at h
    · contradiction
    · cases h
      rw [heq, List.length_cons] at hle
      omega

theorem unicodeEscape_length_le {c : Char} {s r : List Char} (h : unicodeEscape s = .ok (c, r)) :
    r.length ≤ s.length := by
  unfold unicodeEscape at h
  split at h
  · exact Nat.le_succ_of_le (bracedEscape_length_le h)
  · split at h
    · contradiction
    · next hhigh =>
      have := hexDigits_length_le hhigh
      split at h
      · split at h
        · next tail =>
          split at h
          · contradiction
          · next low rest hlow =>
            have := hexDigits_length_le hlow
            split at h
            · have := (Prod.mk.inj (Except.ok.inj h)).2
              subst this
              simp only [List.length_cons] at *
              omega
            · have := (Prod.mk.inj (Except.ok.inj h)).2
              subst this
              omega
        · cases h
          assumption
      · cases h
        assumption

theorem escape_length_lt {c : Option Char} {s r : List Char} (h : escape s = .ok (c, r)) :
    r.length < s.length := by
  unfold escape at h
  split at h
  case h_1 => contradiction
  case h_12 s =>
    obtain ⟨_, hdigits, _⟩ := mapRead_eq_ok h
    exact Nat.lt_succ_of_le (hexDigits_length_le hdigits)
  case h_13 s =>
    obtain ⟨_, hunicode, _⟩ := mapRead_eq_ok h
    exact Nat.lt_succ_of_le (unicodeEscape_length_le hunicode)
  all_goals
    cases h
    repeat rw [List.length_cons]
    omega

/--
Read a string behind its opening quote. `read` holds what was read of it so far, last character
first.
-/
def stringBody (quote : Char) (s : List Char) (read : List Char) : Step (List Char) :=
  match s with
  | [] => .error ⟨.openString, []⟩
  | c :: r =>
    if c = quote then
      .ok (read.reverse, r)
    else if c = '\\' then
      match _h : escape r with
      | .error fault => .error fault
      | .ok (c?, rest) => stringBody quote rest (c?.toList ++ read)
    else if c = '\n' then
      .error ⟨.newline, r⟩
    else
      stringBody quote r (c :: read)
termination_by s.length
decreasing_by
  · exact Nat.lt_succ_of_lt (escape_length_lt _h)
  · exact Nat.lt_succ_self _

theorem stringBody_length_lt {quote : Char} {s read text r : List Char}
    (h : stringBody quote s read = .ok (text, r)) : r.length < s.length := by
  fun_induction stringBody quote s read with
  | case1 => contradiction
  | case2 =>
    cases h
    exact Nat.lt_succ_self _
  | case3 => contradiction
  | case4 s read c rest hescape _ ih =>
    exact Nat.lt_succ_of_lt (Nat.lt_trans (ih h) (escape_length_lt hescape))
  | case5 => contradiction
  | case6 c s read _ _ _ ih => exact Nat.lt_succ_of_lt (ih h)

end SymbolSearch.Literal
