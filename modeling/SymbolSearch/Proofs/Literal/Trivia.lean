import SymbolSearch.Literal.Trivia
import SymbolSearch.Proofs.Literal.Grammar

/-!
This module contains the proof that blanks and comments are skipped, however many there are, and that
nothing else is.
-/

namespace SymbolSearch.Literal

def startsGap (c : Char) : Bool :=
  Text.isBlank c || c == '/'

theorem skipTrivia_of_stops {s : List Char} (h : Text.Stops startsGap s) : skipTrivia s = .ok s := by
  cases s with
  | nil => rw [skipTrivia]
  | cons c r =>
    have hc := h c rfl
    simp only [startsGap, Bool.or_eq_false_iff, beq_eq_false_iff_ne] at hc
    unfold skipTrivia
    split <;> simp_all

theorem ne_slash_of_isBlank {c : Char} (h : Text.isBlank c) : c ≠ '/' := by
  rintro rfl
  revert h
  decide

theorem skipTrivia_cons_of_isBlank {c : Char} (h : Text.isBlank c) (s : List Char) :
    skipTrivia (c :: s) = skipTrivia s := by
  rw [skipTrivia, if_pos h]
  all_goals
    intro r hc
    exact absurd hc (ne_slash_of_isBlank h)

theorem closeComment?_append {text : List Char} (h : ¬['*', '/'] <:+: text) (s : List Char) :
    closeComment? (text ++ '*' :: '/' :: s) = some s := by
  induction text with
  | nil => rfl
  | cons c text ih =>
    have hrest : ¬['*', '/'] <:+: text := by
      intro hinfix
      exact h (List.infix_cons hinfix)
    rw [List.cons_append, closeComment?]
    · exact ih hrest
    -- What is in front of the end is no end itself.
    · rintro r rfl heq
      cases text with
      | nil => cases heq
      | cons d text =>
        cases heq
        exact h (List.IsPrefix.isInfix ⟨text, rfl⟩)

theorem Gap.skipTrivia_text_append (gap : Gap) (s : List Char) :
    skipTrivia (gap.text ++ s) = skipTrivia s := by
  cases gap with
  | blank c h => apply skipTrivia_cons_of_isBlank h s
  | line text h =>
    simp only [Gap.text, List.cons_append, List.append_assoc, List.nil_append]
    rw [skipTrivia, Text.dropWhile_append_of_stops]
    · apply skipTrivia_cons_of_isBlank (by decide) s
    · intro c hc
      rw [bne_iff_ne]
      rintro rfl
      exact h hc
    · apply Text.Stops.cons (by decide)
  | block text h =>
    simp only [Gap.text, List.cons_append, List.append_assoc, List.nil_append]
    rw [skipTrivia]
    split
    · next hnone =>
      rw [closeComment?_append h] at hnone
      contradiction
    · next hsome =>
      rw [closeComment?_append h] at hsome
      cases hsome
      rfl

theorem Gaps.skipTrivia_text_append (gaps : Gaps) (s : List Char) :
    skipTrivia (gaps.text ++ s) = skipTrivia s := by
  induction gaps with
  | nil => rfl
  | cons gap gaps ih =>
    unfold Gaps.text at *
    rw [List.flatMap_cons, List.append_assoc, gap.skipTrivia_text_append, ih]

theorem Gaps.skipTrivia_text_append_of_stops (gaps : Gaps) {s : List Char}
    (h : Text.Stops startsGap s) : skipTrivia (gaps.text ++ s) = .ok s := by
  rw [gaps.skipTrivia_text_append, skipTrivia_of_stops h]

theorem Gaps.stops_text_append {p : Char → Bool} (gaps : Gaps)
    (hblank : ∀ {c}, Text.isBlank c → p c = false) (hslash : p '/' = false) {s : List Char}
    (h : Text.Stops p s) : Text.Stops p (gaps.text ++ s) := by
  cases gaps with
  | nil => exact h
  | cons gap gaps =>
    cases gap with
    | blank c hc => exact .cons (hblank hc)
    | line text _ => exact .cons hslash
    | block text _ => exact .cons hslash

theorem exists_append_of_closeComment? {s r : List Char} (h : closeComment? s = some r) :
    ∃ text, ¬['*', '/'] <:+: text ∧ s = text ++ '*' :: '/' :: r := by
  fun_induction closeComment? s with
  | case1 =>
    cases h
    exact ⟨[], by simp, rfl⟩
  | case2 c s hopen ih =>
    obtain ⟨text, htext, rfl⟩ := ih h
    refine ⟨c :: text, ?_, rfl⟩
    rw [List.infix_cons_iff, not_or]
    refine ⟨?_, htext⟩
    rintro ⟨behind, heq⟩
    cases text with
    | nil => cases heq
    | cons d text =>
      cases heq
      exact hopen _ rfl rfl
  | case3 => contradiction

theorem dropWhile_newline_cases (s : List Char) :
    ('\n' ∉ s ∧ s.dropWhile (· != '\n') = []) ∨
      ∃ text r, '\n' ∉ text ∧ s = text ++ '\n' :: r ∧ s.dropWhile (· != '\n') = '\n' :: r := by
  induction s with
  | nil => exact .inl ⟨List.not_mem_nil, rfl⟩
  | cons c s ih =>
    by_cases hc : c = '\n'
    · subst hc
      exact .inr ⟨[], s, List.not_mem_nil, rfl, List.dropWhile_cons_of_neg (by decide)⟩
    · have hdrop : (c :: s).dropWhile (· != '\n') = s.dropWhile (· != '\n') :=
        List.dropWhile_cons_of_pos (by simpa using hc)
      rw [hdrop]
      rcases ih with ⟨hs, hend⟩ | ⟨text, r, htext, rfl, hbreak⟩
      · exact .inl ⟨by simp [hs, Ne.symm hc], hend⟩
      · exact .inr ⟨c :: text, r, by simp [htext, Ne.symm hc], rfl, hbreak⟩

/-- What is skipped are gaps. Only at the end of the text there may be a comment without its line
break behind them. -/
theorem exists_tail_of_skipTrivia {s r : List Char} (h : skipTrivia s = .ok r) :
    ∃ tail : Tail, s = tail.text ++ r ∧ (tail.comment? = none ∨ r = []) := by
  unfold skipTrivia at h
  split at h
  · cases h
    exact ⟨⟨[], none, by simp⟩, rfl, .inl rfl⟩
  · next s =>
    rcases dropWhile_newline_cases s with ⟨hs, hend⟩ | ⟨text, rest, htext, rfl, hbreak⟩
    · rw [hend, skipTrivia] at h
      cases h
      exact ⟨⟨[], some s, by simpa using hs⟩, by simp [Tail.text, Gaps.text], .inr rfl⟩
    · rw [hbreak, skipTrivia_cons_of_isBlank (by decide)] at h
      obtain ⟨tail, rfl, hend⟩ := exists_tail_of_skipTrivia h
      refine ⟨⟨.line text htext :: tail.gaps, tail.comment?, tail.hcomment⟩, ?_, hend⟩
      simp [Tail.text, Gaps.text, Gap.text]
  · next s =>
    split at h
    · contradiction
    · next hclose =>
      obtain ⟨text, htext, rfl⟩ := exists_append_of_closeComment? hclose
      obtain ⟨tail, rfl, hend⟩ := exists_tail_of_skipTrivia h
      refine ⟨⟨.block text htext :: tail.gaps, tail.comment?, tail.hcomment⟩, ?_, hend⟩
      simp [Tail.text, Gaps.text, Gap.text]
  · next c s _ _ =>
    split at h
    · next hblank =>
      obtain ⟨tail, rfl, hend⟩ := exists_tail_of_skipTrivia h
      refine ⟨⟨.blank c hblank :: tail.gaps, tail.comment?, tail.hcomment⟩, ?_, hend⟩
      simp [Tail.text, Gaps.text, Gap.text]
    · cases h
      exact ⟨⟨[], none, by simp⟩, rfl, .inl rfl⟩
termination_by s.length

theorem exists_gaps_of_skipTrivia {s r : List Char} (h : skipTrivia s = .ok r) (hr : r ≠ []) :
    ∃ gaps : Gaps, s = gaps.text ++ r := by
  obtain ⟨tail, rfl, hcomment⟩ := exists_tail_of_skipTrivia h
  refine ⟨tail.gaps, ?_⟩
  rw [Tail.text, hcomment.resolve_right hr, Option.elim_none, List.append_nil]

theorem Tail.skipTrivia_text (tail : Tail) : skipTrivia tail.text = .ok [] := by
  unfold text
  rw [tail.gaps.skipTrivia_text_append]
  cases hcomment : tail.comment? with
  | none => rw [Option.elim_none, skipTrivia]
  | some comment =>
    have hall : ∀ c ∈ comment, (c != '\n') = true := by
      intro c hc
      rw [bne_iff_ne]
      rintro rfl
      exact tail.hcomment comment hcomment hc
    have hdrop := Text.dropWhile_append_of_stops hall .nil
    rw [List.append_nil] at hdrop
    rw [Option.elim_some, skipTrivia, hdrop, skipTrivia]

end SymbolSearch.Literal
