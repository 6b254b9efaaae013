import SymbolSearch.Literal.Quoted
import SymbolSearch.Proofs.Literal.Rendering
import SymbolSearch.Proofs.Text.Span

/-!
This module contains the proof that a string is read back from every way to write it.
-/

namespace SymbolSearch.Literal

@[simp]
theorem charOfCode_toNat (c : Char) : charOfCode c.toNat = c := by
  unfold charOfCode
  rw [Text.scalar?_toNat]
  rfl

theorem HexDigits.hexDigits_append {n count : Nat} (hex : HexDigits n)
    (h : hex.digits.length = count) (s : List Char) :
    hexDigits count (hex.digits ++ s) = .ok (n, s) := by
  unfold hexDigits
  rw [List.take_left' h, List.drop_left' h]
  simp [h, hex.all, hex.value]

theorem HexDigits.not_mem {n : Nat} (hex : HexDigits n) {c : Char}
    (h : Text.isDigitIn 16 c = false) : c ∉ hex.digits := by
  intro hc
  have := List.all_eq_true.mp hex.all c hc
  rw [h] at this
  contradiction

theorem HexDigits.codePoint?_digits {n : Nat} (hex : HexDigits n) (hne : hex.digits ≠ [])
    (hn : n < UInt32.size) : codePoint? hex.digits = some n := by
  unfold codePoint?
  split
  · next r heq =>
    have hplus : '+' ∉ hex.digits := hex.not_mem (by decide)
    rw [heq] at hplus
    simp at hplus
  · simp [hne, hex.all, hex.value, hn]

theorem HexDigits.bracedEscape_append {c : Char} (hex : HexDigits c.toNat) (hne : hex.digits ≠ [])
    (s : List Char) : bracedEscape (hex.digits ++ '}' :: s) = .ok (c, s) := by
  have hall : ∀ d ∈ hex.digits, (d != '}') = true := by
    intro d hd
    rw [bne_iff_ne]
    rintro rfl
    apply hex.not_mem (by decide) hd
  have hstops : Text.Stops (· != '}') ('}' :: s) := .cons (by decide)
  have hlt : c.toNat < UInt32.size := c.val.toNat_lt
  unfold bracedEscape
  rw [Text.dropWhile_append_of_stops hall hstops, Text.takeWhile_append_of_stops hall hstops]
  dsimp only
  rw [hex.codePoint?_digits hne hlt]
  simp

theorem isHighSurrogate_toNat (c : Char) : isHighSurrogate c.toNat = false := by
  have hvalid : c.toNat.isValidChar := c.valid
  simp only [Nat.isValidChar] at hvalid
  simp only [isHighSurrogate, Bool.and_eq_false_iff, decide_eq_false_iff_not]
  omega

theorem HexDigits.append_ne_brace_cons {n : Nat} (hex : HexDigits n) (hne : hex.digits ≠ [])
    (s r : List Char) : hex.digits ++ s ≠ '{' :: r := by
  intro heq
  obtain ⟨d, digits, hdigits⟩ := List.exists_cons_of_ne_nil hne
  have hd : d ∈ hex.digits := by simp [hdigits]
  rw [hdigits] at heq
  cases heq
  apply hex.not_mem rfl hd

theorem HexDigits.unicodeEscape_append {c : Char} (hex : HexDigits c.toNat)
    (h : hex.digits.length = 4) (s : List Char) : unicodeEscape (hex.digits ++ s) = .ok (c, s) := by
  have hne : hex.digits ≠ [] := List.ne_nil_of_length_eq_add_one h
  unfold unicodeEscape
  split
  · next heq => exact absurd heq (hex.append_ne_brace_cons hne _ _)
  · rw [hex.hexDigits_append h]
    simp [isHighSurrogate_toNat]

theorem surrogatePair_eq {c : Char} {high low : Nat} (h : c.toNat = 0x10000 + high * 0x400 + low) :
    surrogatePair (0xD800 + high) (0xDC00 + low) = c := by
  unfold surrogatePair
  rw [Nat.add_sub_cancel_left, Nat.add_sub_cancel_left, ← h, charOfCode_toNat]

theorem unicodeEscape_pair {c : Char} {high low : Nat} (hhigh : high < 0x400) (hlow : low < 0x400)
    (hvalue : c.toNat = 0x10000 + high * 0x400 + low)
    (first : HexDigits (0xD800 + high)) (hfirst : first.digits.length = 4)
    (second : HexDigits (0xDC00 + low)) (hsecond : second.digits.length = 4) (s : List Char) :
    unicodeEscape (first.digits ++ '\\' :: 'u' :: (second.digits ++ s)) = .ok (c, s) := by
  have hne : first.digits ≠ [] := List.ne_nil_of_length_eq_add_one hfirst
  have hishigh : isHighSurrogate (0xD800 + high) := by
    simp only [isHighSurrogate, Bool.and_eq_true, decide_eq_true_eq]
    omega
  have hislow : isLowSurrogate (0xDC00 + low) := by
    simp only [isLowSurrogate, Bool.and_eq_true, decide_eq_true_eq]
    omega
  unfold unicodeEscape
  split
  · next heq => exact absurd heq (first.append_ne_brace_cons hne _ _)
  · rw [first.hexDigits_append hfirst]
    simp [hishigh, second.hexDigits_append hsecond, hislow, surrogatePair_eq hvalue]

theorem escape_of_not_reserved {c : Char} (h : c ∉ reserved) (s : List Char) :
    escape (c :: s) = .ok (some c, s) := by
  simp only [reserved, List.mem_cons, List.not_mem_nil, or_false, not_or] at h
  unfold escape
  split <;> simp_all

theorem escape_letter {name c : Char} (h : (name, c) ∈ letterEscapes) (s : List Char) :
    escape (name :: s) = .ok (some c, s) := by
  simp only [letterEscapes, List.mem_cons, Prod.mk.injEq, List.not_mem_nil, or_false] at h
  rcases h with ⟨rfl, rfl⟩ | ⟨rfl, rfl⟩ | ⟨rfl, rfl⟩ | ⟨rfl, rfl⟩ | ⟨rfl, rfl⟩ | ⟨rfl, rfl⟩ | ⟨rfl, rfl⟩
  all_goals rfl

theorem Quote.char_ne_backslash (quote : Quote) : quote.char ≠ '\\' := by
  cases quote <;> decide

theorem Quote.char_ne_newline (quote : Quote) : quote.char ≠ '\n' := by
  cases quote <;> decide

variable {quote : Quote}

theorem stringBody_quote (s read : List Char) :
    stringBody quote.char (quote.char :: s) read = .ok (read.reverse, s) := by
  rw [stringBody, if_pos rfl]

theorem stringBody_raw {c : Char} (hquote : c ≠ quote.char) (hbackslash : c ≠ '\\')
    (hnewline : c ≠ '\n') (s read : List Char) :
    stringBody quote.char (c :: s) read = stringBody quote.char s (c :: read) := by
  rw [stringBody, if_neg hquote, if_neg hbackslash, if_neg hnewline]

theorem stringBody_escape {c? : Option Char} {s r : List Char} (h : escape s = .ok (c?, r))
    (read : List Char) :
    stringBody quote.char ('\\' :: s) read = stringBody quote.char r (c?.toList ++ read) := by
  rw [stringBody, if_neg quote.char_ne_backslash.symm, if_pos rfl]
  split
  · next herror =>
    rw [h] at herror
    contradiction
  · next hok =>
    rw [h] at hok
    cases hok
    rfl

theorem stringBody_unicode {c : Char} {s r : List Char} (h : unicodeEscape s = .ok (c, r))
    (read : List Char) :
    stringBody quote.char ('\\' :: 'u' :: s) read = stringBody quote.char r (c :: read) := by
  have hescape : escape ('u' :: s) = .ok (some c, r) := by
    simp [escape, h, mapRead]
  apply stringBody_escape hescape read

theorem Spelling.stringBody_text_append {c : Char} (spelling : Spelling quote c) (s read : List Char) :
    stringBody quote.char (spelling.text ++ s) read = stringBody quote.char s (c :: read) := by
  cases spelling with
  | raw hquote hbackslash hnewline => apply stringBody_raw hquote hbackslash hnewline s read
  | letter name h => apply stringBody_escape (escape_letter h s) read
  | itself h => apply stringBody_escape (escape_of_not_reserved h s) read
  | twoDigits hex h =>
    have hescape : escape ('x' :: (hex.digits ++ s)) = .ok (some c, s) := by
      simp [escape, hex.hexDigits_append h, mapRead]
    apply stringBody_escape hescape read
  | fourDigits hex h => apply stringBody_unicode (hex.unicodeEscape_append h s) read
  | pair high low hhigh hlow hvalue first hfirst second hsecond =>
    simp only [text, List.cons_append, List.append_assoc]
    apply stringBody_unicode
      (unicodeEscape_pair hhigh hlow hvalue first hfirst second hsecond s) read
  | braces hex h =>
    have hunicode : unicodeEscape ('{' :: (hex.digits ++ '}' :: s)) = .ok (c, s) :=
      hex.bracedEscape_append h s
    simp only [text, List.cons_append, List.append_assoc, List.nil_append]
    apply stringBody_unicode hunicode read

theorem escape_lineBreak_append (lineBreak : LineBreak) {s : List Char}
    (h : Text.Stops (· == '\n') s) : escape (lineBreak.text ++ s) = .ok (none, s) := by
  cases lineBreak with
  | lineFeed => rfl
  | both => rfl
  | carriageReturn =>
    change escape ('\r' :: s) = .ok (none, s)
    rw [escape]
    rintro r rfl
    have := h '\n' rfl
    contradiction

theorem Piece.stringBody_text_append (piece : Piece quote) {s : List Char}
    (h : Text.Stops (· == '\n') s) (read : List Char) :
    stringBody quote.char (piece.text ++ s) read =
      stringBody quote.char s (piece.char?.toList ++ read) := by
  cases piece with
  | char c spelling => apply spelling.stringBody_text_append s read
  | continuation lineBreak => apply stringBody_escape (escape_lineBreak_append lineBreak h) read

theorem Piece.stops_text_append (piece : Piece quote) (s : List Char) :
    Text.Stops (· == '\n') (piece.text ++ s) := by
  cases piece with
  | continuation lineBreak => exact .cons (by decide)
  | char c spelling =>
    cases spelling with
    | raw hquote hbackslash hnewline => exact .cons (by simpa using hnewline)
    | _ => exact .cons (by decide)

theorem stops_pieces_append (pieces : List (Piece quote)) (s : List Char) :
    Text.Stops (· == '\n') (pieces.flatMap Piece.text ++ quote.char :: s) := by
  cases pieces with
  | nil => exact .cons (by simpa using quote.char_ne_newline)
  | cons piece pieces =>
    rw [List.flatMap_cons, List.append_assoc]
    apply piece.stops_text_append _

theorem stringBody_pieces_append (pieces : List (Piece quote)) (s read : List Char) :
    stringBody quote.char (pieces.flatMap Piece.text ++ quote.char :: s) read =
      .ok (read.reverse ++ pieces.filterMap Piece.char?, s) := by
  induction pieces generalizing read with
  | nil =>
    rw [List.filterMap_nil, List.append_nil]
    apply stringBody_quote s read
  | cons piece pieces ih =>
    rw [List.flatMap_cons, List.append_assoc,
      piece.stringBody_text_append (stops_pieces_append pieces s), ih]
    cases piece with
    | char c spelling => simp [Piece.char?]
    | continuation lineBreak => simp [List.filterMap_cons, Piece.char?]

end SymbolSearch.Literal
