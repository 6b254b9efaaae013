import SymbolSearch.Literal.Scanner
import SymbolSearch.Proofs.Literal.Cursor
import SymbolSearch.Proofs.Literal.Trivia

/-!
This module contains the proof that a cursor skips the same blanks and comments as the reading of a
literal does. A round of the cursor's loop takes all blanks up to a comment and the comment, however
long they are.
-/

namespace SymbolSearch.Literal

theorem skipTrivia_trimStart (s : List Char) : skipTrivia (Text.trimStart s) = skipTrivia s := by
  induction s with
  | nil => rfl
  | cons c s ih =>
    unfold Text.trimStart at *
    cases hc : Text.isBlank c with
    | true => rw [skipTrivia_cons_of_isBlank hc, ← ih, List.dropWhile_cons_of_pos hc]
    | false => rw [List.dropWhile_cons_of_neg (by simp [hc])]

theorem skipTrivia_eq_self {s : List Char} (hblank : Text.Stops Text.isBlank s)
    (hline : ¬['/', '/'] <+: s) (hblock : ¬['/', '*'] <+: s) : skipTrivia s = .ok s := by
  unfold skipTrivia
  split
  · rfl
  · next r => exact absurd ⟨r, rfl⟩ hline
  · next r => exact absurd ⟨r, rfl⟩ hblock
  · next c r _ _ => rw [if_neg (by simp [hblank c rfl])]

theorem skipTrivia_lineComment (s : List Char) :
    skipTrivia ('/' :: '/' :: s) = skipTrivia (('/' :: '/' :: s).dropWhile (· != '\n')) := by
  rw [skipTrivia]
  rfl

theorem skipTrivia_blockComment_of_none {s : List Char} (h : closeComment? s = none) :
    skipTrivia ('/' :: '*' :: s) = .error ⟨.openComment, '/' :: '*' :: s⟩ := by
  rw [skipTrivia]
  split
  · rfl
  · next hsome =>
    rw [h] at hsome
    contradiction

theorem skipTrivia_blockComment_of_some {s r : List Char} (h : closeComment? s = some r) :
    skipTrivia ('/' :: '*' :: s) = skipTrivia r := by
  rw [skipTrivia]
  split
  · next hnone =>
    rw [h] at hnone
    contradiction
  · next hsome =>
    rw [h] at hsome
    cases hsome
    rfl

theorem closeComment?_cases (s : List Char) :
    (closeComment? s = none ∧ Text.findText? ['*', '/'] s = none) ∨
      ∃ text r, s = text ++ '*' :: '/' :: r ∧ closeComment? s = some r ∧
        Text.findText? ['*', '/'] s = some (Text.byteLength text) := by
  fun_induction closeComment? s with
  | case1 r => exact .inr ⟨[], r, rfl, rfl, rfl⟩
  | case2 c s hopen ih =>
    have hfront : ['*', '/'].isPrefixOf (c :: s) = false := by
      rw [Bool.eq_false_iff, Ne, List.isPrefixOf_iff_prefix]
      rintro ⟨behind, heq⟩
      cases heq
      exact hopen _ rfl rfl
    rw [Text.findText?, hfront, if_neg Bool.false_ne_true]
    rcases ih with ⟨hnone, hfind⟩ | ⟨text, r, rfl, hsome, hfind⟩
    · exact .inl ⟨hnone, by rw [hfind, Option.map_none]⟩
    · exact .inr ⟨c :: text, r, rfl, hsome, by rw [hfind, Option.map_some, Text.byteLength_cons]⟩
  | case3 => exact .inl ⟨rfl, rfl⟩

namespace Scan

/--
The ways in which a round of skipping blanks and comments may end.
-/
inductive Skips (rest : List Char) : Step (ForInStep Unit) → Prop
  | done {r : List Char} (h : Literal.skipTrivia rest = .ok r) : Skips rest (.ok (.done (), r))
  | yield {r : List Char} (h : Literal.skipTrivia rest = Literal.skipTrivia r) (hr : r <:+ rest)
      (hlt : r.length < rest.length) : Skips rest (.ok (.yield (), r))
  | error {fault : Fault} (h : Literal.skipTrivia rest = .error fault) : Skips rest (.error fault)

variable (source : Source) (depth : Nat)

theorem exists_follows_lineComment (s : List Char) :
    ∃ step, Skips ('/' :: '/' :: s) step ∧
      Follows source depth ('/' :: '/' :: s) step (comment ('/' :: '/' :: s)) := by
  have hskip := skipTrivia_lineComment s
  unfold comment
  rw [if_pos (by rfl)]
  rcases Text.find?_beq_cases '\n' ('/' :: '/' :: s) with
    ⟨hdrop, hfind⟩ | ⟨r, hdrop, hsplit, hfind⟩
  · rw [hdrop] at hskip
    rw [hfind]
    exact ⟨_, .yield hskip List.nil_suffix (Nat.zero_lt_succ _),
      .bind .read (.bind (.moveTo List.nil_suffix rfl) (.pure _))⟩
  · rw [hdrop, skipTrivia_cons_of_isBlank (c := '\n') rfl] at hskip
    rw [hfind]
    have hbreak : '\n' :: r <:+ '/' :: '/' :: s := hdrop ▸ List.dropWhile_suffix _
    have hr : r <:+ '/' :: '/' :: s := (List.suffix_cons _ r).trans hbreak
    refine ⟨_, .yield hskip hr hbreak.length_le, .bind (.advance hr ?_) (.pure _)⟩
    have hbytes := congrArg Text.byteLength hsplit
    rw [Text.byteLength_append] at hbytes
    rw [hbytes, Nat.add_assoc]
    rfl

theorem exists_follows_blockComment (s : List Char) :
    ∃ step, Skips ('/' :: '*' :: s) step ∧
      Follows source depth ('/' :: '*' :: s) step (comment ('/' :: '*' :: s)) := by
  have hbehind : Follows source depth ('/' :: '*' :: s) (.ok (s, '/' :: '*' :: s)) (restFrom 2) :=
    .restFrom ⟨['/', '*'], rfl⟩ (Text.byteLength_append ['/', '*'] s).symm
  unfold comment
  rw [if_neg (by simp [List.isPrefixOf]), if_pos (by rfl)]
  rcases closeComment?_cases s with ⟨hnone, hfind⟩ | ⟨text, r, rfl, hsome, hfind⟩
  · refine ⟨_, .error (skipTrivia_blockComment_of_none hnone), .bind hbehind ?_⟩
    rw [hfind]
    exact .fail .openComment
  · have hr : r <:+ '/' :: '*' :: (text ++ '*' :: '/' :: r) :=
      ⟨'/' :: '*' :: (text ++ ['*', '/']), by simp⟩
    refine ⟨.ok (.yield (), r), .yield (skipTrivia_blockComment_of_some hsome) hr ?_,
      .bind hbehind ?_⟩
    · simp only [List.length_cons, List.length_append]
      omega
    · rw [hfind]
      refine .bind (.advance hr ?_) (.pure _)
      have hslash : '/'.utf8Size = 1 := rfl
      have hstar : '*'.utf8Size = 1 := rfl
      simp only [Text.byteLength_cons, Text.byteLength_append]
      omega

theorem exists_follows_comment {rest : List Char} (hblank : Text.Stops Text.isBlank rest) :
    ∃ step, Skips rest step ∧ Follows source depth rest step (comment rest) := by
  by_cases hline : ['/', '/'] <+: rest
  · obtain ⟨s, rfl⟩ := hline
    exact exists_follows_lineComment source depth s
  by_cases hblock : ['/', '*'] <+: rest
  · obtain ⟨s, rfl⟩ := hblock
    exact exists_follows_blockComment source depth s
  refine ⟨_, .done (skipTrivia_eq_self hblank hline hblock), ?_⟩
  unfold comment
  rw [if_neg (by rwa [List.isPrefixOf_iff_prefix]), if_neg (by rwa [List.isPrefixOf_iff_prefix])]
  exact .pure _

theorem exists_follows_triviaPart (rest : List Char) :
    ∃ step, Skips rest step ∧ Follows source depth rest step triviaPart := by
  have htrim : Text.trimStart rest <:+ rest := List.dropWhile_suffix _
  have hle := Text.byteLength_le_of_suffix htrim
  have hskip := (skipTrivia_trimStart rest).symm
  obtain ⟨step, hskips, hcomment⟩ :=
    exists_follows_comment source depth (Text.stops_dropWhile (p := Text.isBlank) rest)
  refine ⟨step, ?_, .bind .rest (.bind (.advance htrim (Nat.sub_add_cancel hle)) hcomment)⟩
  cases hskips with
  | done h => exact .done (hskip.trans h)
  | yield h hr hlt =>
    exact .yield (hskip.trans h) (hr.trans htrim) (Nat.lt_of_lt_of_le hlt htrim.length_le)
  | error h => exact .error (hskip.trans h)

theorem follows_skipTrivia (rest : List Char) :
    Follows source depth rest ((Literal.skipTrivia rest).map (Prod.mk ())) skipTrivia := by
  apply Follows.call
  -- A round may take a whole comment, so the induction is on how much of the text is left.
  · induction hlength : rest.length using Nat.strongRecOn generalizing rest with
    | ind n ih =>
      obtain ⟨step, hskips, hpart⟩ := exists_follows_triviaPart source depth rest
      cases hskips with
      | done h =>
        rw [h]
        exact .loop_done hpart
      | @yield r h hr hlt =>
        rw [h]
        exact .loop_yield hpart (Text.byteLength_lt_of_suffix hr hlt)
          (ih r.length (hlength ▸ hlt) r rfl)
      | error h =>
        rw [h]
        exact .loop_error hpart
  · have hunread := unread_skipTrivia_suffix rest
    cases hskip : Literal.skipTrivia rest <;> rwa [hskip] at hunread

variable {source depth} {rest r : List Char}

theorem follows_of_skipTrivia (h : Literal.skipTrivia rest = .ok r) :
    Follows source depth rest (.ok ((), r)) skipTrivia := by
  have hfollows := follows_skipTrivia source depth rest
  rwa [h] at hfollows

theorem follows_of_skipTrivia_error {fault : Fault} (h : Literal.skipTrivia rest = .error fault) :
    Follows source depth rest (.error fault) skipTrivia := by
  have hfollows := follows_skipTrivia source depth rest
  rwa [h] at hfollows

end Scan

end SymbolSearch.Literal
