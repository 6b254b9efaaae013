import SymbolSearch.Proofs.Literal.Grammar
import SymbolSearch.Proofs.Literal.Quoted

/-!
This module contains the proof that the texts that are read as escapes and as strings are those that
the grammar has for them.
-/

namespace SymbolSearch.Literal

open Text (Stops)

theorem hexDigits_eq_ok_iff {count n : Nat} {s r : List Char} :
    hexDigits count s = .ok (n, r) ↔
      ∃ hex : HexDigits n, hex.digits.length = count ∧ s = hex.digits ++ r := by
  constructor
  · intro h
    unfold hexDigits at h
    dsimp only at h
    split at h
    · next hdigits =>
      cases h
      exact ⟨⟨s.take count, hdigits.2, rfl⟩, hdigits.1, (List.take_append_drop count s).symm⟩
    · contradiction
  · rintro ⟨hex, hlength, rfl⟩
    exact hex.hexDigits_append hlength r

theorem exists_codePoint?_eq (body : List Char) :
    ∃ plus : Bool, ∃ digits, body = (if plus then ['+'] else []) ++ digits ∧
      codePoint? body =
        if !digits.isEmpty ∧ digits.all (Text.isDigitIn 16) ∧ Text.numeral 16 digits < UInt32.size then
          some (Text.numeral 16 digits)
        else none := by
  cases body with
  | nil => exact ⟨false, [], rfl, rfl⟩
  | cons c r =>
    by_cases hc : c = '+'
    · subst hc
      exact ⟨true, r, rfl, rfl⟩
    · exact ⟨false, c :: r, rfl, by simp [codePoint?, hc]⟩

theorem codePoint?_eq_some_iff {body : List Char} {n : Nat} :
    codePoint? body = some n ↔
      ∃ plus : Bool, ∃ hex : HexDigits n, hex.digits ≠ [] ∧ n < UInt32.size ∧
        body = (if plus then ['+'] else []) ++ hex.digits := by
  constructor
  · intro h
    obtain ⟨plus, digits, hbody, hcode⟩ := exists_codePoint?_eq body
    rw [hcode] at h
    split at h
    · next hdigits =>
      cases h
      exact ⟨plus, ⟨digits, hdigits.2.1, rfl⟩, by simpa using hdigits.1, hdigits.2.2, hbody⟩
    · contradiction
  · rintro ⟨plus, hex, hne, hn, rfl⟩
    cases plus with
    | true => simp [codePoint?, hne, hex.all, hex.value, hn]
    | false => exact hex.codePoint?_digits hne hn

theorem dropWhile_brace_eq_cons {s r : List Char} {c : Char}
    (h : s.dropWhile (· != '}') = c :: r) : c = '}' := by
  have hstops := Text.stops_dropWhile (p := (· != '}')) s c
  rw [h] at hstops
  simpa using hstops rfl

theorem bracedEscape_eq_ok_iff {c : Char} {s r : List Char} :
    bracedEscape s = .ok (c, r) ↔
      ∃ plus : Bool, ∃ n, ∃ hex : HexDigits n, hex.digits ≠ [] ∧ n < UInt32.size ∧
        charOfCode n = c ∧ s = (if plus then ['+'] else []) ++ (hex.digits ++ '}' :: r) := by
  constructor
  · intro h
    unfold bracedEscape at h
    split at h
    · contradiction
    · next hdrop =>
      cases dropWhile_brace_eq_cons hdrop
      split at h
      · contradiction
      · next n hcode =>
        cases h
        obtain ⟨plus, hex, hne, hn, htake⟩ := codePoint?_eq_some_iff.mp hcode
        refine ⟨plus, n, hex, hne, hn, rfl, ?_⟩
        rw [← List.append_assoc, ← htake, ← hdrop, List.takeWhile_append_dropWhile]
  · rintro ⟨plus, n, hex, hne, hn, rfl, rfl⟩
    have hall : ∀ d ∈ (if plus then ['+'] else []) ++ hex.digits, (d != '}') = true := by
      intro d hd
      rw [bne_iff_ne]
      rintro rfl
      rcases List.mem_append.mp hd with hd | hd
      · cases plus <;> simp at hd
      · apply hex.not_mem (by decide) hd
    have hstops : Stops (· != '}') ('}' :: r) := .cons (by decide)
    rw [← List.append_assoc]
    unfold bracedEscape
    rw [Text.dropWhile_append_of_stops hall hstops, Text.takeWhile_append_of_stops hall hstops]
    dsimp only
    rw [codePoint?_eq_some_iff.mpr ⟨plus, hex, hne, hn, rfl⟩]

theorem charOfCode_of_isHighSurrogate {n : Nat} (h : isHighSurrogate n) :
    charOfCode n = replacement := by
  have hinvalid : ¬n.isValidChar := by
    simp only [isHighSurrogate, Bool.and_eq_true, decide_eq_true_eq] at h
    simp only [Nat.isValidChar]
    omega
  unfold charOfCode Text.scalar?
  rw [if_neg hinvalid]
  rfl

theorem exists_escape_of_unicodeEscape {c : Char} {s r : List Char}
    (h : unicodeEscape s = .ok (c, r)) :
    ∃ escaped, 'u' :: s = escaped ++ r ∧ Escape r escaped (some c) := by
  unfold unicodeEscape at h
  split at h
  · obtain ⟨plus, n, hex, hne, hn, rfl, rfl⟩ := bracedEscape_eq_ok_iff.mp h
    exact ⟨_, by simp, .braces plus hex hne hn⟩
  · split at h
    · contradiction
    · next high rest hhigh =>
      obtain ⟨first, hfirst, rfl⟩ := hexDigits_eq_ok_iff.mp hhigh
      split at h
      · next hsurrogate =>
        split at h
        · next next =>
          split at h
          · contradiction
          · next low behind hlow =>
            obtain ⟨second, hsecond, rfl⟩ := hexDigits_eq_ok_iff.mp hlow
            split at h
            · next hislow =>
              obtain ⟨rfl, rfl⟩ := Prod.mk.inj (Except.ok.inj h)
              exact ⟨_, by simp, .pair hsurrogate hislow first hfirst second hsecond⟩
            · next hislow =>
              cases h
              rw [← charOfCode_of_isHighSurrogate hsurrogate]
              refine ⟨_, by simp, .fourDigits first hfirst ?_⟩
              rintro - next heq
              cases heq
              exact ⟨low, second, hsecond, by simpa using hislow, List.prefix_append ..⟩
        · next hother =>
          cases h
          rw [← charOfCode_of_isHighSurrogate hsurrogate]
          refine ⟨_, by simp, .fourDigits first hfirst ?_⟩
          rintro - next heq
          exact absurd heq (hother next)
      · next hsurrogate =>
        cases h
        exact ⟨_, by simp, .fourDigits first hfirst (absurd · hsurrogate)⟩

theorem unicodeEscape_fourDigits {n : Nat} (hex : HexDigits n) (h : hex.digits.length = 4)
    {s : List Char} (halone : isHighSurrogate n → LeavesAlone s) :
    unicodeEscape (hex.digits ++ s) = .ok (charOfCode n, s) := by
  have hne : hex.digits ≠ [] := List.ne_nil_of_length_eq_add_one h
  unfold unicodeEscape
  split
  · next heq => exact absurd heq (hex.append_ne_brace_cons hne _ _)
  · rw [hex.hexDigits_append h]
    dsimp only
    split
    · next hsurrogate =>
      rw [charOfCode_of_isHighSurrogate hsurrogate]
      split
      · next next _ =>
        obtain ⟨low, second, hsecond, hlow, behind, rfl⟩ := halone hsurrogate next rfl
        rw [second.hexDigits_append hsecond]
        simp [hlow]
      · rfl
    · rfl

theorem unicodeEscape_surrogates {high low : Nat} (hhigh : isHighSurrogate high)
    (hlow : isLowSurrogate low) (first : HexDigits high) (hfirst : first.digits.length = 4)
    (second : HexDigits low) (hsecond : second.digits.length = 4) (s : List Char) :
    unicodeEscape (first.digits ++ '\\' :: 'u' :: (second.digits ++ s)) =
      .ok (surrogatePair high low, s) := by
  have hne : first.digits ≠ [] := List.ne_nil_of_length_eq_add_one hfirst
  unfold unicodeEscape
  split
  · next heq => exact absurd heq (first.append_ne_brace_cons hne _ _)
  · rw [first.hexDigits_append hfirst]
    simp [hhigh, second.hexDigits_append hsecond, hlow]

theorem exists_escape_of_escape {c? : Option Char} {s r : List Char} (h : escape s = .ok (c?, r)) :
    ∃ escaped, s = escaped ++ r ∧ Escape r escaped c? := by
  unfold escape at h
  split at h
  case h_1 => contradiction
  case h_9 =>
    cases h
    exact ⟨['\n'], rfl, .continuation .lineFeed (by intro h; contradiction)⟩
  case h_10 =>
    cases h
    exact ⟨['\r', '\n'], rfl, .continuation .both (by intro h; contradiction)⟩
  case h_11 hother =>
    cases h
    refine ⟨['\r'], rfl, .continuation .carriageReturn ?_⟩
    rintro - c hc
    cases r with
    | nil => contradiction
    | cons d r =>
      cases hc
      rw [beq_eq_false_iff_ne]
      rintro rfl
      exact hother r rfl
  case h_12 =>
    obtain ⟨n, hdigits, rfl⟩ := mapRead_eq_ok h
    obtain ⟨hex, hlength, rfl⟩ := hexDigits_eq_ok_iff.mp hdigits
    exact ⟨_, rfl, .twoDigits hex hlength⟩
  case h_13 =>
    obtain ⟨c, hunicode, rfl⟩ := mapRead_eq_ok h
    exact exists_escape_of_unicodeEscape hunicode
  case h_14 c s _ _ _ _ _ _ _ _ _ _ _ _ =>
    cases h
    refine ⟨[c], rfl, .itself ?_⟩
    simp_all [reserved]
  all_goals
    cases h
    exact ⟨[_], rfl, .letter (by decide)⟩

theorem Escape.escape_append {c? : Option Char} {escaped s : List Char} (h : Escape s escaped c?) :
    escape (escaped ++ s) = .ok (c?, s) := by
  cases h with
  | letter h => exact escape_letter h s
  | itself h => exact escape_of_not_reserved h s
  | continuation lineBreak h =>
    cases lineBreak with
    | lineFeed => rfl
    | both => rfl
    | carriageReturn => exact escape_lineBreak_append .carriageReturn (h rfl)
  | twoDigits hex h => simp [escape, hex.hexDigits_append h, mapRead]
  | fourDigits hex h halone => simp [escape, unicodeEscape_fourDigits hex h halone, mapRead]
  | pair hhigh hlow first hfirst second hsecond =>
    simp [escape, unicodeEscape_surrogates hhigh hlow first hfirst second hsecond, mapRead]
  | @braces n plus hex hne hn =>
    have hbraced : bracedEscape ((if plus then ['+'] else []) ++ (hex.digits ++ '}' :: s)) =
        .ok (charOfCode n, s) :=
      bracedEscape_eq_ok_iff.mpr ⟨plus, n, hex, hne, hn, rfl, rfl⟩
    simp [escape, unicodeEscape, hbraced, mapRead]

theorem escape_eq_ok_iff {c? : Option Char} {s r : List Char} :
    escape s = .ok (c?, r) ↔ ∃ escaped, s = escaped ++ r ∧ Escape r escaped c? := by
  constructor
  · exact exists_escape_of_escape
  · rintro ⟨escaped, rfl, h⟩
    exact h.escape_append

theorem Escape.ne_nil {c? : Option Char} {escaped behind : List Char} (h : Escape behind escaped c?) :
    escaped ≠ [] := by
  cases h with
  | continuation lineBreak _ => cases lineBreak <;> simp [LineBreak.text]
  | _ => simp

section Body

variable {quote : Quote} {text chars : List Char}

theorem Body.ne_nil (h : Body quote text chars) : text ≠ [] := by
  cases h <;> simp

theorem Body.exists_cons_of_backslash {s : List Char} (h : Body quote ('\\' :: s) chars) :
    ∃ c r, s = c :: r := by
  generalize hs : '\\' :: s = text at h
  cases h with
  | close => cases quote <;> cases hs
  | raw _ hbackslash =>
    cases hs
    exact absurd rfl hbackslash
  | escape hescape =>
    cases hs
    obtain ⟨c, r, rfl⟩ := List.exists_cons_of_ne_nil hescape.ne_nil
    exact ⟨c, _, rfl⟩

/-- A Unicode escape in a string has an opening brace or four digits. -/
theorem Body.unicode_cases {s : List Char} (h : Body quote ('\\' :: 'u' :: s) chars) :
    (∃ r, s = '{' :: r) ∨
      ∃ n, ∃ hex : HexDigits n, hex.digits.length = 4 ∧ hex.digits <+: s := by
  generalize hs : '\\' :: 'u' :: s = text at h
  cases h with
  | close => cases quote <;> cases hs
  | raw _ hbackslash =>
    cases hs
    exact absurd rfl hbackslash
  | @escape escaped text _ _ hescape _ =>
    have htail : 'u' :: s = escaped ++ text := (List.cons.inj hs).2
    cases hescape with
    | letter hname =>
      cases htail
      simp [letterEscapes] at hname
    | itself hreserved =>
      cases htail
      exact absurd (by decide) hreserved
    | continuation lineBreak _ => cases lineBreak <;> cases htail
    | twoDigits hex _ => cases htail
    | fourDigits hex hlength _ =>
      obtain rfl : s = hex.digits ++ text := (List.cons.inj htail).2
      exact .inr ⟨_, hex, hlength, List.prefix_append ..⟩
    | pair _ _ first hfirst second _ =>
      obtain rfl : s = (first.digits ++ '\\' :: 'u' :: second.digits) ++ text :=
        (List.cons.inj htail).2
      right
      refine ⟨_, first, hfirst, ?_⟩
      rw [List.append_assoc]
      apply List.prefix_append
    | braces plus hex _ _ =>
      cases htail
      exact .inl ⟨_, rfl⟩

/-- Whether the first half of a surrogate pair stays alone does not depend on what follows the
string. -/
theorem Body.leavesAlone_append_iff (h : Body quote text chars) (r : List Char) :
    LeavesAlone (text ++ r) ↔ LeavesAlone text := by
  constructor
  · rintro halone next rfl
    obtain ⟨n, hex, hlength, hlow, hfront⟩ := halone (next ++ r) rfl
    refine ⟨n, hex, hlength, hlow, ?_⟩
    rcases h.unicode_cases with ⟨s, rfl⟩ | ⟨_, other, hother, hle⟩
    · obtain ⟨behind, heq⟩ := hfront
      exact absurd heq (hex.append_ne_brace_cons (List.ne_nil_of_length_eq_add_one hlength) _ _)
    · have := hle.length_le
      exact List.prefix_of_prefix_length_le hfront (List.prefix_append ..) (by omega)
  · intro halone next heq
    obtain ⟨c, s, rfl⟩ := List.exists_cons_of_ne_nil h.ne_nil
    obtain ⟨rfl, hs⟩ := List.cons.inj heq
    obtain ⟨d, s, rfl⟩ := h.exists_cons_of_backslash
    obtain ⟨rfl, rfl⟩ := List.cons.inj hs
    obtain ⟨n, hex, hlength, hlow, hfront⟩ := halone s rfl
    exact ⟨n, hex, hlength, hlow, hfront.trans (List.prefix_append ..)⟩

theorem Body.stops_append_iff (h : Body quote text chars) {p : Char → Bool} (r : List Char) :
    Stops p (text ++ r) ↔ Stops p text := by
  obtain ⟨c, s, rfl⟩ := List.exists_cons_of_ne_nil h.ne_nil
  exact Iff.rfl

theorem Escape.mono {c? : Option Char} {escaped s t : List Char} (h : Escape s escaped c?)
    (hstops : Stops (· == '\n') s → Stops (· == '\n') t) (halone : LeavesAlone s → LeavesAlone t) :
    Escape t escaped c? := by
  cases h with
  | letter hname => exact .letter hname
  | itself hreserved => exact .itself hreserved
  | continuation lineBreak hreturn => exact .continuation lineBreak (hstops ∘ hreturn)
  | twoDigits hex hlength => exact .twoDigits hex hlength
  | fourDigits hex hlength hhigh => exact .fourDigits hex hlength (halone ∘ hhigh)
  | pair hhigh hlow first hfirst second hsecond =>
    exact .pair hhigh hlow first hfirst second hsecond
  | braces plus hex hne hn => exact .braces plus hex hne hn

theorem Body.escape_append_iff (h : Body quote text chars) {c? : Option Char} {escaped : List Char}
    (r : List Char) : Escape (text ++ r) escaped c? ↔ Escape text escaped c? := by
  constructor
  · intro hescape
    exact hescape.mono (h.stops_append_iff r).mp (h.leavesAlone_append_iff r).mp
  · intro hescape
    exact hescape.mono (h.stops_append_iff r).mpr (h.leavesAlone_append_iff r).mpr

theorem Body.stringBody_append (h : Body quote text chars) (r read : List Char) :
    stringBody quote.char (text ++ r) read = .ok (read.reverse ++ chars, r) := by
  induction h generalizing read with
  | close =>
    rw [List.append_nil]
    exact stringBody_quote r read
  | raw hquote hbackslash hnewline _ ih =>
    rw [List.cons_append, stringBody_raw hquote hbackslash hnewline, ih]
    simp
  | escape hescape hbody ih =>
    have hread := ((hbody.escape_append_iff r).mpr hescape).escape_append
    rw [List.cons_append, List.append_assoc, stringBody_escape hread, ih]
    rename_i c?
    cases c? <;> simp

theorem exists_body_of_stringBody {s read r : List Char}
    (h : stringBody quote.char s read = .ok (chars, r)) :
    ∃ text held, s = text ++ r ∧ Body quote text held ∧ chars = read.reverse ++ held := by
  generalize hquote : quote.char = q at h
  fun_induction stringBody q s read with
  | case1 => contradiction
  | case2 =>
    subst hquote
    cases h
    exact ⟨_, [], rfl, .close, (List.append_nil _).symm⟩
  | case3 => contradiction
  | case4 read s c? rest hescape _ ih =>
    obtain ⟨text, held, rfl, hbody, rfl⟩ := ih h
    obtain ⟨escaped, rfl, hstands⟩ := escape_eq_ok_iff.mp hescape
    refine ⟨_, c?.toList ++ held, ?_, .escape ((hbody.escape_append_iff r).mp hstands) hbody, ?_⟩
    · simp
    · cases c? <;> simp
  | case5 => contradiction
  | case6 read c s hne hbackslash hnewline ih =>
    subst hquote
    obtain ⟨text, held, rfl, hbody, rfl⟩ := ih h
    exact ⟨_, c :: held, rfl, .raw hne hbackslash hnewline hbody, by simp⟩

theorem stringBody_eq_ok_iff {s r : List Char} :
    stringBody quote.char s [] = .ok (chars, r) ↔ ∃ text, s = text ++ r ∧ Body quote text chars := by
  constructor
  · intro h
    obtain ⟨text, held, htext, hbody, rfl⟩ := exists_body_of_stringBody h
    exact ⟨text, htext, hbody⟩
  · rintro ⟨text, rfl, hbody⟩
    exact hbody.stringBody_append r []

end Body

end SymbolSearch.Literal
