import SymbolSearch.Literal.Scanner
import SymbolSearch.Proofs.Literal.Cursor
import SymbolSearch.Proofs.Literal.Fault

/-!
This module contains the proof that a cursor scans strings and their escapes as the reading of a
literal does. Digits that are asked for by the number of their bytes are found by the number of
their characters, since each digit takes one byte.
-/

namespace SymbolSearch.Text

theorem utf8Size_of_isDigitIn {c : Char} (h : isDigitIn 16 c) : c.utf8Size = 1 := by
  have hle : c ≤ 'f' := by
    unfold isDigitIn digitValue? at h
    split at h
    · next hc => exact Char.le_trans hc.2 (by decide)
    · split at h
      · next hc => exact hc.2
      · split at h
        · next hc => exact Char.le_trans hc.2 (by decide)
        · contradiction
  exact if_pos (UInt32.le_trans hle (by decide))

theorem byteLength_of_all_isDigitIn {digits : List Char} (h : digits.all (isDigitIn 16)) :
    byteLength digits = digits.length := by
  induction digits with
  | nil => rfl
  | cons c digits ih =>
    rw [List.all_cons, Bool.and_eq_true] at h
    rw [byteLength_cons, List.length_cons, utf8Size_of_isDigitIn h.1, ih h.2, Nat.add_comm]

theorem splitBytes?_of_digits {count : Nat} {s : List Char}
    (hlength : (s.take count).length = count) (hdigits : (s.take count).all (isDigitIn 16)) :
    splitBytes? count s = some (s.take count, s.drop count) := by
  have hsplit := splitBytes?_append (s.take count) (s.drop count)
  rwa [byteLength_of_all_isDigitIn hdigits, hlength, List.take_append_drop] at hsplit

end SymbolSearch.Text

namespace SymbolSearch.Literal.Scan

variable (source : Source) (depth : Nat)

theorem follows_hexDigits (count : Nat) (rest : List Char) :
    Follows source depth rest (Literal.hexDigits count rest) (hexDigits count) := by
  unfold Literal.hexDigits
  refine .bind (.front? count) ?_
  dsimp only
  split
  · next hdigits =>
    rw [Text.splitBytes?_of_digits hdigits.1 hdigits.2, Option.map_some]
    dsimp only
    rw [if_pos hdigits.2]
    refine .bind (.advance (List.drop_suffix count rest) ?_) (.pure _)
    have hbytes := Text.byteLength_append (rest.take count) (rest.drop count)
    rw [List.take_append_drop, Text.byteLength_of_all_isDigitIn hdigits.2, hdigits.1] at hbytes
    exact hbytes.symm
  · next hdigits =>
    cases hsplit : Text.splitBytes? count rest with
    | none => exact .fail .hexEscape
    | some split =>
      obtain ⟨rfl, rfl⟩ := Text.eq_append_of_splitBytes? hsplit
      have hnot : ¬split.1.all (Text.isDigitIn 16) := by
        intro hall
        apply hdigits
        rw [Text.byteLength_of_all_isDigitIn hall, List.take_left]
        exact ⟨rfl, hall⟩
      dsimp only [Option.map_some]
      rw [if_neg hnot]
      exact .fail .hexEscape

theorem follows_bracedEscape (rest : List Char) :
    Follows source depth rest (Literal.bracedEscape rest) bracedEscape := by
  unfold Literal.bracedEscape
  refine .bind .rest ?_
  rcases Text.find?_beq_cases '}' rest with ⟨hdrop, hfind⟩ | ⟨r, hdrop, hsplit, hfind⟩
  · rw [hdrop, hfind]
    exact .fail .openCodePoint
  · rw [hdrop, hfind]
    have hbrace : '}' :: r <:+ rest := hdrop ▸ List.dropWhile_suffix _
    refine .bind (.front hsplit.symm rfl) ?_
    cases codePoint? (rest.takeWhile (· != '}')) with
    | none => exact .fail .codePoint
    | some code =>
      refine .bind (.advance ((List.suffix_cons _ r).trans hbrace) ?_) (.pure _)
      have hbytes := congrArg Text.byteLength hsplit
      rw [Text.byteLength_append] at hbytes
      rw [hbytes, Nat.add_assoc]
      rfl

theorem follows_surrogate (high : Nat) (rest : List Char) :
    Follows source depth rest
      (match rest with
        | '\\' :: 'u' :: next =>
          match Literal.hexDigits 4 next with
          | .error fault => .error fault
          | .ok (low, r) =>
            if isLowSurrogate low then
              .ok (surrogatePair high low, r)
            else
              .ok (replacement, rest)
        | _ => .ok (replacement, rest))
      (surrogate high) := by
  refine .of_suffix fun hrest => .bind .rest ?_
  split
  · next next =>
    rw [if_pos (by rfl)]
    have hopen := Text.byteLength_append ['\\', 'u'] next
    refine .bind .place (.bind (.advance (r := next) ⟨['\\', 'u'], rfl⟩ hopen.symm) ?_)
    have hlow := follows_hexDigits source depth 4 next
    cases hdigits : Literal.hexDigits 4 next with
    | error fault =>
      rw [hdigits] at hlow
      exact hlow.bind_error _
    | ok read =>
      rw [hdigits] at hlow
      refine .bind hlow ?_
      dsimp only
      split
      · exact .pure _
      · have hle := Text.byteLength_le_of_suffix hrest
        exact .bind (.moveTo hrest (Nat.sub_add_cancel hle)) (.pure _)
  · next hescape =>
    rw [if_neg]
    · exact .pure _
    · rw [List.isPrefixOf_iff_prefix]
      rintro ⟨next, rfl⟩
      exact hescape next rfl

theorem follows_unicodeEscape (rest : List Char) :
    Follows source depth rest (Literal.unicodeEscape rest) unicodeEscape := by
  unfold Literal.unicodeEscape
  split
  · next r =>
    apply Follows.peek_of_head
    exact .bind (.advance (List.suffix_cons _ r) rfl) (follows_bracedEscape source depth r)
  · next hbrace =>
    apply Follows.peek_of_other hbrace
    have hhigh := follows_hexDigits source depth 4 rest
    cases hdigits : Literal.hexDigits 4 rest with
    | error fault =>
      rw [hdigits] at hhigh
      exact hhigh.bind_error _
    | ok read =>
      rw [hdigits] at hhigh
      refine .bind hhigh ?_
      dsimp only
      split
      · exact follows_surrogate source depth read.1 read.2
      · exact .pure _

theorem follows_escape (rest : List Char) :
    Follows source depth rest (Literal.escape rest) escape := by
  unfold Literal.escape
  split
  case h_1 => exact .bind .bump_nil (.fail .openEscape)
  case h_10 r =>
    refine .bind (.bump_cons _) (.peek_of_head ?_)
    exact .bind (.advance (List.suffix_cons _ r) rfl) (.pure _)
  case h_11 r hfeed => exact .bind (.bump_cons _) (.peek_of_other hfeed (.pure _))
  case h_12 r => exact .bind (.bump_cons _) ((follows_hexDigits source depth 2 r).map _)
  case h_13 r => exact .bind (.bump_cons _) ((follows_unicodeEscape source depth r).map _)
  case h_14 =>
    -- Behind the backslash stands none of the characters that have a meaning of their own.
    refine .bind (.bump_cons _) ?_
    split
    case h_13 heq =>
      cases heq
      exact .pure _
    all_goals simp_all
  all_goals exact .bind (.bump_cons _) (.pure _)

theorem follows_stringBody (quote : Char) (rest : List Char) :
    Follows source depth rest (Literal.stringBody quote rest []) (stringBody quote) := by
  apply Follows.call
  · generalize [] = read
    fun_induction Literal.stringBody quote rest read with
    | case1 => exact .loop_error (.bind .bump_nil (.fail .openString))
    | case2 r read =>
      refine .loop_done (.bind (.bump_cons quote) ?_)
      dsimp only
      rw [if_pos rfl]
      exact .pure _
    | case3 read r fault hescape hquote =>
      have hfollows := follows_escape source depth r
      rw [hescape] at hfollows
      refine .loop_error (.bind (.bump_cons '\\') ?_)
      dsimp only
      rw [if_neg hquote, if_pos rfl]
      exact hfollows.bind_error _
    | case4 read r c? behind hescape hquote ih =>
      have hfollows := follows_escape source depth r
      rw [hescape] at hfollows
      refine .loop_yield (.bind (.bump_cons '\\') ?_) ?_ ih
      · dsimp only
        rw [if_neg hquote, if_pos rfl]
        exact .bind hfollows (.pure _)
      · have hsuffix : behind <:+ r := suffix_of_eq_ok (unread_escape_suffix r) hescape
        exact Text.byteLength_lt_of_suffix (hsuffix.trans (List.suffix_cons _ r))
          (Nat.lt_succ_of_lt (escape_length_lt hescape))
    | case5 read r hquote =>
      refine .loop_error (.bind (.bump_cons '\n') ?_)
      dsimp only
      rw [if_neg hquote, if_neg (by decide), if_pos rfl]
      exact .fail .newline
    | case6 read c r hquote hbackslash hnewline ih =>
      refine .loop_yield (.bind (.bump_cons c) ?_) ?_ ih
      · dsimp only
        rw [if_neg hquote, if_neg hbackslash, if_neg hnewline]
        exact .pure _
      · exact Text.byteLength_lt_of_suffix (List.suffix_cons c r) (Nat.lt_succ_self _)
  · exact unread_stringBody_suffix quote rest []

end SymbolSearch.Literal.Scan
