import SymbolSearch.Proofs.Toml.Quoted

/-!
This module contains the proof that keys are read as what is written.
-/

namespace SymbolSearch.Toml

open Text (Stops)

theorem readKey_eq {name : String} {s r : List Char} (h : readName s = some (name, r)) :
    readKey s = match skipBlanks r with
      | '.' :: next => mapRead (name :: ·) (readKey (skipBlanks next))
      | rest => some ([name], rest) := by
  rw [readKey]
  split
  · next hnone =>
    rw [h] at hnone
    contradiction
  · next hsome =>
    rw [h] at hsome
    cases hsome
    split
    · next heq =>
      rw [heq]
      split <;> next hkey => exact (congrArg (mapRead (name :: ·)) hkey).symm
    · next hne =>
      split
      · next heq => exact absurd heq (hne _)
      · rfl

/--
The characters that go on with a key, or may stand between it and the part that does.
-/
def continuesKey (c : Char) : Bool :=
  isBareChar c || isBlank c || c == '.'

theorem startsName_of_isBareChar {c : Char} (h : isBareChar c) : startsName c := by
  unfold startsName
  rw [h]
  rfl

theorem startsLayout_eq_false_of_startsName (c : Char) (h : startsName c) :
    startsLayout c = false := by
  rw [Bool.eq_false_iff]
  intro hlayout
  simp only [startsLayout, isBlank, Bool.or_eq_true, beq_iff_eq] at hlayout
  rcases hlayout with (((rfl | rfl) | rfl) | rfl) | rfl <;> contradiction

theorem isBareChar_eq_false_of_startsLayout (c : Char) (h : startsLayout c) :
    isBareChar c = false := by
  rw [Bool.eq_false_iff]
  intro hbare
  rw [startsLayout_eq_false_of_startsName c (startsName_of_isBareChar hbare)] at h
  contradiction

theorem WritesKey.text_eq_cons {key : Key} {text : List Char} (h : WritesKey key text) :
    ∃ c r, text = c :: r ∧ startsName c := by
  cases h with
  | last h => exact h.text_eq_cons
  | more h _ _ _ =>
    obtain ⟨c, r, rfl, hc⟩ := h.text_eq_cons
    exact ⟨c, _, rfl, hc⟩

theorem WritesKey.stops_append {p : Char → Bool} (hp : ∀ c, startsName c → p c = false) {key : Key}
    {text : List Char} (h : WritesKey key text) (s : List Char) : Stops p (text ++ s) := by
  obtain ⟨c, r, rfl, hc⟩ := h.text_eq_cons
  exact .cons (hp c hc)

theorem WritesKey.stops_isBlank {key : Key} {text : List Char} (h : WritesKey key text)
    (s : List Char) : Stops isBlank (text ++ s) :=
  stops_isBlank_of_startsLayout (h.stops_append startsLayout_eq_false_of_startsName s)

theorem WritesKey.readKey_append {key : Key} {text blanks s : List Char} (h : WritesKey key text)
    (hblanks : blanks.all isBlank) (hs : Stops continuesKey s) :
    readKey (text ++ (blanks ++ s)) = some (key, s) := by
  have hbare : Stops isBareChar s := hs.mono (by simp +contextual [continuesKey])
  have hblank : Stops isBlank s := hs.mono (by simp +contextual [continuesKey])
  have hdot : Stops (· == '.') s := hs.mono (by simp +contextual [continuesKey])
  induction h with
  | last h =>
    have hname := h.readName_append
      (stops_blanks_append isBareChar_eq_false_of_startsLayout hblanks hbare)
    rw [readKey_eq hname, skipBlanks_append hblanks hblank]
    split
    · exact absurd rfl (Text.stops_beq_iff.mp hdot)
    · rfl
  | @more name key text before behind rest h hbefore hbehind hrest ih =>
    have hstops {p : Char → Bool} (hp : p '.' = false) :
        Stops p ('.' :: (behind ++ (rest ++ (blanks ++ s)))) := .cons hp
    have hname := h.readName_append
      (stops_blanks_append isBareChar_eq_false_of_startsLayout hbefore (hstops rfl))
    simp only [List.append_assoc, List.cons_append]
    rw [readKey_eq hname, skipBlanks_append hbefore (hstops rfl)]
    change mapRead (name :: ·) (readKey (skipBlanks (behind ++ (rest ++ (blanks ++ s))))) = _
    rw [skipBlanks_append hbehind (hrest.stops_isBlank _), ih]
    rfl

end SymbolSearch.Toml
