import SymbolSearch.Proofs.Literal.Acceptance

/-!
This module contains the proof of what the first half of a surrogate pair does to the string behind it.
If the second half does not follow, the first one is replaced and the rest of the string is read as if
it stood alone, unless the rest starts with an escape in braces.
-/

namespace SymbolSearch.Literal

def Quote.enclose (quote : Quote) (body : List Char) : List Char :=
  quote.char :: (body ++ [quote.char])

/--
Whether a text starts with the second half of a surrogate pair.
-/
def StartsLow (s : List Char) : Prop :=
  ∃ low, ∃ hex : HexDigits low,
    hex.digits.length = 4 ∧ isLowSurrogate low ∧ '\\' :: 'u' :: hex.digits <+: s

def startsLow : List Char → Bool
  | '\\' :: 'u' :: r =>
    match hexDigits 4 r with
    | .ok (n, _) => isLowSurrogate n
    | .error _ => false
  | _ => false

theorem startsLow_iff {s : List Char} : startsLow s ↔ StartsLow s := by
  constructor
  · intro h
    unfold startsLow at h
    split at h
    · split at h
      · next hdigits =>
        obtain ⟨hex, hlength, rfl⟩ := hexDigits_eq_ok_iff.mp hdigits
        exact ⟨_, hex, hlength, h, List.prefix_append ..⟩
      · contradiction
    · contradiction
  · rintro ⟨low, hex, hlength, hlow, r, rfl⟩
    simp [startsLow, hex.hexDigits_append hlength, hlow]

instance (s : List Char) : Decidable (StartsLow s) :=
  decidable_of_iff _ startsLow_iff

variable {quote : Quote} {s r body text chars : List Char} {high : Nat}

theorem isPrefix_of_append_quote {front : List Char} (h : front <+: body ++ [quote.char])
    (hquote : quote.char ∉ front) : front <+: body := by
  rcases List.prefix_concat_iff.mp h with rfl | hbody
  · simp at hquote
  · exact hbody

/-- The quote that ends a string is no part of an escape with four digits. -/
theorem StartsLow.of_append_quote (h : StartsLow (body ++ [quote.char])) : StartsLow body := by
  obtain ⟨low, hex, hlength, hlow, hfront⟩ := h
  refine ⟨low, hex, hlength, hlow, isPrefix_of_append_quote hfront ?_⟩
  have hdigits : quote.char ∉ hex.digits := by
    apply hex.not_mem
    cases quote <;> decide
  cases quote <;> simpa [Quote.char] using hdigits

theorem Body.leavesAlone (h : Body quote text chars) (hlow : ¬StartsLow text)
    (hbrace : ¬['\\', 'u', '{'] <+: text) : LeavesAlone text := by
  rintro next rfl
  rcases h.unicode_cases with ⟨r, rfl⟩ | ⟨n, hex, hlength, hfront⟩
  · exact absurd (List.prefix_append ['\\', 'u', '{'] r) hbrace
  · refine ⟨n, hex, hlength, ?_, hfront⟩
    rw [Bool.eq_false_iff]
    intro hn
    apply hlow
    refine ⟨n, hex, hlength, hn, ?_⟩
    simpa using hfront

theorem stringBody_highSurrogate (hex : HexDigits high) (hlength : hex.digits.length = 4)
    (hhigh : isHighSurrogate high) (h : stringBody quote.char s [] = .ok (chars, r))
    (hlow : ¬StartsLow s) (hbrace : ¬['\\', 'u', '{'] <+: s) :
    stringBody quote.char ('\\' :: 'u' :: (hex.digits ++ s)) [] = .ok (replacement :: chars, r) := by
  obtain ⟨text, rfl, hbody⟩ := stringBody_eq_ok_iff.mp h
  have halone : LeavesAlone (text ++ r) := by
    rw [hbody.leavesAlone_append_iff]
    apply hbody.leavesAlone
    · rintro ⟨low, second, hsecond, hislow, hfront⟩
      exact hlow ⟨low, second, hsecond, hislow, hfront.trans (List.prefix_append ..)⟩
    · intro hfront
      exact hbrace (hfront.trans (List.prefix_append ..))
  have hunicode := unicodeEscape_fourDigits hex hlength fun _ => halone
  rw [stringBody_unicode hunicode, charOfCode_of_isHighSurrogate hhigh, hbody.stringBody_append]
  rfl

theorem hexDigits_cons_eq_error {c : Char} (h : Text.isDigitIn 16 c = false) (count : Nat)
    (s : List Char) : hexDigits (count + 1) (c :: s) = .error ⟨.hexEscape, c :: s⟩ := by
  simp [hexDigits, h]

/-- An escape in braces behind the first half is taken for a second half without its digits. -/
theorem unicodeEscape_highSurrogate_brace (hex : HexDigits high) (hlength : hex.digits.length = 4)
    (hhigh : isHighSurrogate high) (s : List Char) :
    unicodeEscape (hex.digits ++ '\\' :: 'u' :: '{' :: s) = .error ⟨.hexEscape, '{' :: s⟩ := by
  have hne : hex.digits ≠ [] := List.ne_nil_of_length_eq_add_one hlength
  unfold unicodeEscape
  split
  · next heq => exact absurd heq (hex.append_ne_brace_cons hne _ _)
  · rw [hex.hexDigits_append hlength]
    simp [hhigh, hexDigits_cons_eq_error (c := '{') (by decide)]

theorem stringBody_of_escape_eq_error {fault : Fault} (h : escape s = .error fault)
    (read : List Char) : stringBody quote.char ('\\' :: s) read = .error fault := by
  rw [stringBody, if_neg quote.char_ne_backslash.symm, if_pos rfl]
  split
  · next herror =>
    rw [h] at herror
    cases herror
    rfl
  · next hok =>
    rw [h] at hok
    contradiction

theorem readLiteral_quote (quote : Quote) (s : List Char) :
    readLiteral (quote.char :: s) = (do
      let (chars, behind) ← stringBody quote.char s []
      let behind ← skipTrivia behind
      match ← skipSemicolon behind with
      | [] => return .string (.ofList chars)
      | rest => throw ⟨.trailing, rest⟩) := by
  have hstops : Text.Stops startsGap (quote.char :: s) := by
    apply Text.Stops.cons
    cases quote <;> decide
  obtain ⟨item?, hread⟩ := valueReader_read maxDepth
  unfold readLiteral
  rw [skipTrivia_of_stops hstops, hread]
  simp only [bind, Except.bind, readValue_quote]
  cases stringBody quote.char s [] with
  | error fault => rfl
  | ok read => rfl

theorem exists_stringBody_of_readLiteral {text : String}
    (h : readLiteral (quote.char :: s) = .ok (.string text)) :
    ∃ chars r, stringBody quote.char s [] = .ok (chars, r) ∧ text = .ofList chars ∧
      ∃ behind, skipTrivia r = .ok behind ∧ skipSemicolon behind = .ok [] := by
  rw [readLiteral_quote] at h
  obtain ⟨⟨chars, r⟩, hbody, h⟩ := bind_eq_ok_iff.mp h
  obtain ⟨behind, hbehind, h⟩ := bind_eq_ok_iff.mp h
  obtain ⟨rest, hrest, h⟩ := bind_eq_ok_iff.mp h
  cases rest with
  | nil =>
    cases h
    exact ⟨chars, r, hbody, rfl, behind, hbehind, hrest⟩
  | cons c rest => contradiction

/--
The first half of a surrogate pair in front of a string that does not start with the second half: it
is replaced and the string goes on as it does alone. Only an escape in braces at the start of the string
is refused, although it means something alone.
-/
theorem readLiteral_highSurrogate (hex : HexDigits high) (hlength : hex.digits.length = 4)
    (hhigh : isHighSurrogate high) {text : String}
    (h : readLiteral (quote.enclose body) = .ok (.string text)) (hlow : ¬StartsLow body) :
    readLiteral (quote.enclose ('\\' :: 'u' :: (hex.digits ++ body))) =
      if ['\\', 'u', '{'] <+: body then .error ⟨.hexEscape, body.drop 2 ++ [quote.char]⟩
      else .ok (.string ("\uFFFD" ++ text)) := by
  obtain ⟨chars, r, hbody, rfl, behind, hbehind, hrest⟩ := exists_stringBody_of_readLiteral h
  unfold Quote.enclose
  rw [List.cons_append, List.cons_append, List.append_assoc, readLiteral_quote]
  split
  · next hfront =>
    obtain ⟨s, rfl⟩ := hfront
    have hunicode := unicodeEscape_highSurrogate_brace hex hlength hhigh (s ++ [quote.char])
    have hescape : escape ('u' :: (hex.digits ++ '\\' :: 'u' :: '{' :: (s ++ [quote.char]))) =
        .error ⟨.hexEscape, '{' :: (s ++ [quote.char])⟩ := by
      simp [escape, hunicode, mapRead]
    simp only [List.cons_append, List.nil_append]
    rw [stringBody_of_escape_eq_error hescape]
    rfl
  · next hbrace =>
    have hlowQuote : ¬StartsLow (body ++ [quote.char]) := hlow ∘ StartsLow.of_append_quote
    have hbraceQuote : ¬['\\', 'u', '{'] <+: body ++ [quote.char] := by
      intro hfront
      apply hbrace
      apply isPrefix_of_append_quote hfront
      cases quote <;> decide
    have hread := stringBody_highSurrogate hex hlength hhigh hbody hlowQuote hbraceQuote
    rw [hread]
    have htext : String.ofList (replacement :: chars) = "\uFFFD" ++ String.ofList chars := by
      simp [replacement]
    simp only [bind, Except.bind, hbehind, hrest, htext]
    rfl

theorem readLiteral_highSurrogate_chain :
    readLiteral (Quote.single.enclose "\\uDBFFb".toList) = .ok (.string "\uFFFDb") ∧
      ¬StartsLow "\\uDBFFb".toList ∧
      readLiteral (Quote.single.enclose "\\uD800\\uDBFFb".toList) =
        .ok (.string "\uFFFD\uFFFDb") := by
  have hbody : readLiteral (Quote.single.enclose "\\uDBFFb".toList) = .ok (.string "\uFFFDb") := by
    decide +kernel
  have hlow : ¬StartsLow "\\uDBFFb".toList := by decide
  refine ⟨hbody, hlow, ?_⟩
  apply readLiteral_highSurrogate ⟨['D', '8', '0', '0'], by decide, rfl⟩ rfl rfl hbody hlow

/-- Alone the escape in braces is a letter, but behind the first half it is a fault. -/
theorem readLiteral_highSurrogate_braces :
    readLiteral (Quote.single.enclose "\\u\x7b41\x7d".toList) = .ok (.string "A") ∧
      ¬StartsLow "\\u\x7b41\x7d".toList ∧
      readLiteral (Quote.single.enclose "\\uD800\\u\x7b41\x7d".toList) ≠
        .ok (.string "\uFFFDA") := by
  decide +kernel

end SymbolSearch.Literal
