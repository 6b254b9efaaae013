import SymbolSearch.Proofs.Literal.Unread
import SymbolSearch.Proofs.Text.Span

/-!
This module contains the proof that the message of a fault tells what stands at its place, whichever
reader noticed the fault.
-/

namespace SymbolSearch.Literal

/--
What each message tells about the text in front of a place and the text from there on.
-/
inductive Tells : String → List Char → List Char → Prop
  | endOfText {before} : Tells "unexpected end of input" before []
  | character {before rest} (c : Char) :
    Tells ("unexpected character '" ++ c.toString ++ "'") before (c :: rest)
  | word {before rest} {text : String} (h : text.toList <+: rest) :
    Tells ("unexpected identifier '" ++ text ++ "'") before rest
  | number {before rest} {text : String} (h : text.toList <+: rest) :
    Tells ("invalid number '" ++ text ++ "'") before rest
  | nesting {before rest} : Tells "nesting too deep" before ('[' :: rest)
  | openComment {before rest} (h : ¬['*', '/'] <:+: rest) :
    Tells "unterminated block comment" before ('/' :: '*' :: rest)
  | openArray {before} : Tells "unterminated array" before []
  | separator {before rest} (c : Char) :
    Tells ("expected ',' or ']', found '" ++ c.toString ++ "'") before (c :: rest)
  | openString {before} : Tells "unterminated string" before []
  | newline (before : List Char) {rest} : Tells "newline in string literal" (before ++ ['\n']) rest
  | openEscape {before} : Tells "unterminated escape sequence" before []
  | hexEscape (before : List Char) {rest} {c : Char} (h : c = 'x' ∨ c = 'u') :
    Tells "invalid hex escape" (before ++ ['\\', c]) rest
  | openCodePoint (before : List Char) {rest} :
    Tells "unterminated unicode escape" (before ++ ['\\', 'u', '\x7b']) rest
  | codePoint (before : List Char) {rest} :
    Tells "invalid unicode escape" (before ++ ['\\', 'u', '\x7b']) rest
  | trailing {before rest} {c : Char} (h : Text.isBlank c = false) :
    Tells "unexpected content after literal" before (c :: rest)

/-- No message tells how far the text in front of its place goes back. -/
theorem Tells.append_left {message : String} {before rest : List Char}
    (h : Tells message before rest) (front : List Char) : Tells message (front ++ before) rest := by
  cases h with
  | endOfText => exact .endOfText
  | character c => exact .character c
  | word h => exact .word h
  | number h => exact .number h
  | nesting => exact .nesting
  | openComment h => exact .openComment h
  | openArray => exact .openArray
  | separator c => exact .separator c
  | openString => exact .openString
  | openEscape => exact .openEscape
  | trailing h => exact .trailing h
  | newline before =>
    rw [← List.append_assoc]
    exact .newline (front ++ before)
  | hexEscape before h =>
    rw [← List.append_assoc]
    exact .hexEscape (front ++ before) h
  | openCodePoint before =>
    rw [← List.append_assoc]
    exact .openCodePoint (front ++ before)
  | codePoint before =>
    rw [← List.append_assoc]
    exact .codePoint (front ++ before)

/--
Whether the message of a fault in a text is true at its place.
-/
def Fault.Fits (fault : Fault) (s : List Char) : Prop :=
  ∃ before, s = before ++ fault.rest ∧ Tells fault.cause.message before fault.rest

namespace Fault.Fits

theorem of_suffix {fault : Fault} {s t : List Char} (h : fault.Fits s) (hsuffix : s <:+ t) :
    fault.Fits t := by
  obtain ⟨before, rfl, htells⟩ := h
  obtain ⟨front, rfl⟩ := hsuffix
  exact ⟨front ++ before, (List.append_assoc _ _ _).symm, htells.append_left front⟩

/-- A fault at the start of a text fits if its message says nothing about the text in front of it. -/
theorem of_tells {cause : Cause} {s : List Char} (h : Tells cause.message [] s) :
    (⟨cause, s⟩ : Fault).Fits s :=
  ⟨[], rfl, h⟩

end Fault.Fits

theorem suffix_of_eq_ok {rest : α → List Char} {outcome : Except Fault α} {a : α} {s : List Char}
    (hsuffix : unread rest outcome <:+ s) (h : outcome = .ok a) : rest a <:+ s := by
  rwa [h] at hsuffix

theorem mapRead_eq_error {f : α → β} {step : Step α} {fault : Fault}
    (h : mapRead f step = .error fault) : step = .error fault := by
  cases step with
  | error =>
    cases h
    rfl
  | ok => contradiction

theorem not_infix_of_closeComment?_eq_none {s : List Char} (h : closeComment? s = none) :
    ¬['*', '/'] <:+: s := by
  fun_induction closeComment? s with
  | case1 => contradiction
  | case2 c s hopen ih =>
    rw [List.infix_cons_iff, not_or]
    refine ⟨?_, ih h⟩
    rintro ⟨behind, heq⟩
    cases heq
    exact hopen _ rfl rfl
  | case3 => simp

theorem stops_of_skipTrivia {s r : List Char} (h : skipTrivia s = .ok r) :
    Text.Stops Text.isBlank r := by
  fun_induction skipTrivia s with
  | case1 =>
    cases h
    exact .nil
  | case2 s ih => exact ih h
  | case3 => contradiction
  | case4 s t hclose ih => exact ih h
  | case5 c s _ _ _ ih => exact ih h
  | case6 c s _ _ hblank =>
    cases h
    exact .cons (by simpa using hblank)

theorem stops_of_skipSemicolon {s r : List Char} (hs : Text.Stops Text.isBlank s)
    (h : skipSemicolon s = .ok r) : Text.Stops Text.isBlank r := by
  unfold skipSemicolon at h
  split at h
  · exact stops_of_skipTrivia h
  · cases h
    exact hs

variable {fault : Fault}

theorem fits_of_skipTrivia {s : List Char} (h : skipTrivia s = .error fault) : fault.Fits s := by
  fun_induction skipTrivia s with
  | case1 => contradiction
  | case2 r ih => exact (ih h).of_suffix ((List.dropWhile_suffix _).trans ⟨['/', '/'], rfl⟩)
  | case3 r hopen =>
    cases h
    exact .of_tells (.openComment (not_infix_of_closeComment?_eq_none hopen))
  | case4 s r hclose ih =>
    exact (ih h).of_suffix ((closeComment?_suffix hclose).trans ⟨['/', '*'], rfl⟩)
  | case5 c r _ _ _ ih => exact (ih h).of_suffix (List.suffix_cons c r)
  | case6 => contradiction

theorem fits_of_hexDigits {count : Nat} {letter : Char} {s : List Char}
    (h : hexDigits count s = .error fault) (hletter : letter = 'x' ∨ letter = 'u') :
    fault.Fits ('\\' :: letter :: s) := by
  unfold hexDigits at h
  dsimp only at h
  split at h
  · contradiction
  · cases h
    exact ⟨['\\', letter], rfl, .hexEscape [] hletter⟩

theorem fits_of_bracedEscape {s : List Char} (h : bracedEscape s = .error fault) :
    fault.Fits ('\\' :: 'u' :: '\x7b' :: s) := by
  unfold bracedEscape at h
  split at h
  · cases h
    exact ⟨['\\', 'u', '\x7b'], rfl, .openCodePoint []⟩
  · split at h
    · cases h
      exact ⟨['\\', 'u', '\x7b'], rfl, .codePoint []⟩
    · contradiction

theorem fits_of_unicodeEscape {s : List Char} (h : unicodeEscape s = .error fault) :
    fault.Fits ('\\' :: 'u' :: s) := by
  unfold unicodeEscape at h
  split at h
  · exact fits_of_bracedEscape h
  · split at h
    · next hhigh =>
      cases h
      exact fits_of_hexDigits hhigh (.inr rfl)
    · next high r hhigh =>
      split at h
      · split at h
        · split at h
          -- The escape of the second half has a backslash and a letter of its own.
          · next hlow =>
            cases h
            exact (fits_of_hexDigits hlow (.inr rfl)).of_suffix
              ((suffix_of_eq_ok (unread_hexDigits_suffix 4 s) hhigh).trans ⟨['\\', 'u'], rfl⟩)
          · split at h <;> contradiction
        · contradiction
      · contradiction

theorem fits_of_escape {s : List Char} (h : escape s = .error fault) :
    fault.Fits ('\\' :: s) := by
  unfold escape at h
  split at h
  case h_1 =>
    cases h
    exact ⟨['\\'], rfl, .openEscape⟩
  case h_12 => exact fits_of_hexDigits (mapRead_eq_error h) (.inl rfl)
  case h_13 => exact fits_of_unicodeEscape (mapRead_eq_error h)
  all_goals contradiction

theorem fits_of_stringBody {quote : Char} {s read : List Char}
    (h : stringBody quote s read = .error fault) : fault.Fits s := by
  fun_induction stringBody quote s read with
  | case1 =>
    cases h
    exact .of_tells .openString
  | case2 => contradiction
  | case3 read s found hescape =>
    cases h
    exact fits_of_escape hescape
  | case4 read s c? rest hescape _ ih =>
    have hsuffix : rest <:+ s := suffix_of_eq_ok (unread_escape_suffix s) hescape
    exact (ih h).of_suffix (hsuffix.trans (List.suffix_cons _ s))
  | case5 =>
    cases h
    exact ⟨['\n'], rfl, .newline []⟩
  | case6 read c s _ _ _ ih => exact (ih h).of_suffix (List.suffix_cons c s)

theorem fits_of_readNumber {c : Char} {r : List Char} (h : readNumber c r = .error fault) :
    fault.Fits (c :: r) := by
  unfold readNumber at h
  dsimp only at h
  split at h
  · contradiction
  · cases h
    refine .of_tells (.number ?_)
    rw [String.toList_ofList]
    exact List.cons_prefix_cons.mpr ⟨rfl, List.takeWhile_prefix _⟩

theorem fits_of_readWord {c : Char} {r : List Char} (h : readWord c r = .error fault) :
    fault.Fits (c :: r) := by
  unfold readWord at h
  dsimp only at h
  split at h
  · contradiction
  · cases h
    refine .of_tells (.word ?_)
    rw [String.toList_ofList]
    exact List.cons_prefix_cons.mpr ⟨rfl, List.takeWhile_prefix _⟩

theorem fits_of_readItems {item : Reader Value}
    (hitem : ∀ {s fault}, item.read s = .error fault → fault.Fits s)
    (hread : ∀ s, unread Prod.snd (item.read s) <:+ s) {s : List Char} {items : List Value}
    (h : readItems item s items = .error fault) : fault.Fits s := by
  have hskip {s r : List Char} (h : skipTrivia s = .ok r) : r <:+ s :=
    suffix_of_eq_ok (unread_skipTrivia_suffix s) h
  have hread {s r : List Char} {value : Value} (h : item.read s = .ok (value, r)) : r <:+ s :=
    suffix_of_eq_ok (hread s) h
  fun_induction readItems item s items with
  | case1 s items found hbefore =>
    cases h
    exact fits_of_skipTrivia hbefore
  | case2 => contradiction
  | case3 s items start _ hbefore found hfault =>
    cases h
    exact (hitem hfault).of_suffix (hskip hbefore)
  | case4 s items start _ hbefore value r hvalue found hbehind =>
    cases h
    exact (fits_of_skipTrivia hbehind).of_suffix ((hread hvalue).trans (hskip hbefore))
  | case5 =>
    cases h
    exact Fault.Fits.of_suffix (.of_tells .openArray) List.nil_suffix
  | case6 s items start _ hbefore value r hvalue next hbehind ih =>
    have hnext : next <:+ r := (List.suffix_cons _ next).trans (hskip hbehind)
    exact (ih h).of_suffix (hnext.trans ((hread hvalue).trans (hskip hbefore)))
  | case7 => contradiction
  | case8 s items start _ hbefore value r hvalue c next _ _ hbehind =>
    cases h
    exact Fault.Fits.of_suffix (.of_tells (.separator c))
      ((hskip hbehind).trans ((hread hvalue).trans (hskip hbefore)))

theorem fits_of_readValue {item? : Option (Reader Value)}
    (hitem : ∀ item ∈ item?, ∀ {s fault}, item.read s = .error fault → fault.Fits s)
    (hread : ∀ item ∈ item?, ∀ s, unread Prod.snd (item.read s) <:+ s) {s : List Char}
    (h : readValue item? s = .error fault) : fault.Fits s := by
  unfold readValue at h
  split at h
  · cases h
    exact .of_tells .endOfText
  · next c r =>
    split at h
    · next hbracket =>
      subst hbracket
      split at h
      · cases h
        exact .of_tells .nesting
      · next item =>
        have hitems := fits_of_readItems (hitem item rfl) (hread item rfl) (mapRead_eq_error h)
        exact hitems.of_suffix (List.suffix_cons _ r)
    · split at h
      · exact (fits_of_stringBody (mapRead_eq_error h)).of_suffix (List.suffix_cons c r)
      · split at h
        · exact fits_of_readNumber h
        · split at h
          · exact fits_of_readWord h
          · cases h
            exact .of_tells (.character c)

theorem fits_of_valueReader {depth : Nat} {s : List Char}
    (h : (valueReader depth).read s = .error fault) : fault.Fits s := by
  induction depth generalizing s fault with
  | zero =>
    change readValue none s = .error fault at h
    apply fits_of_readValue _ _ h
    all_goals
      intro item hitem
      contradiction
  | succ depth ih =>
    change readValue (some (valueReader depth)) s = .error fault at h
    apply fits_of_readValue _ _ h
    all_goals
      intro item hitem
      cases hitem
    · exact ih
    · exact unread_valueReader_suffix depth

theorem fits_of_skipSemicolon {s : List Char} (h : skipSemicolon s = .error fault) :
    fault.Fits s := by
  unfold skipSemicolon at h
  split at h
  · exact (fits_of_skipTrivia h).of_suffix (List.suffix_cons _ _)
  · contradiction

theorem fits_of_readLiteral {s : List Char} (h : readLiteral s = .error fault) : fault.Fits s := by
  unfold readLiteral at h
  rcases bind_eq_error_iff.mp h with heq | ⟨start, heq, h⟩
  · exact fits_of_skipTrivia heq
  have hstart : start <:+ s := suffix_of_eq_ok (unread_skipTrivia_suffix s) heq
  rcases bind_eq_error_iff.mp h with heq | ⟨⟨value, behind⟩, heq, h⟩
  · exact (fits_of_valueReader heq).of_suffix hstart
  have hbehind : behind <:+ s :=
    (suffix_of_eq_ok (unread_valueReader_suffix maxDepth start) heq).trans hstart
  rcases bind_eq_error_iff.mp h with heq | ⟨tail, htail, h⟩
  · exact (fits_of_skipTrivia heq).of_suffix hbehind
  have hsuffix : tail <:+ s := (suffix_of_eq_ok (unread_skipTrivia_suffix behind) htail).trans hbehind
  rcases bind_eq_error_iff.mp h with heq | ⟨rest, hrest, h⟩
  · exact (fits_of_skipSemicolon heq).of_suffix hsuffix
  cases rest with
  | nil => contradiction
  | cons c rest =>
    cases h
    have hstops := stops_of_skipSemicolon (stops_of_skipTrivia htail) hrest
    exact Fault.Fits.of_suffix (.of_tells (.trailing (hstops c rfl)))
      ((suffix_of_eq_ok (unread_skipSemicolon_suffix tail) hrest).trans hsuffix)

end SymbolSearch.Literal
