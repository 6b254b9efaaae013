import SymbolSearch.Proofs.Text.Span
import SymbolSearch.Proofs.Toml.Grammar

/-!
This module contains the proof that everything between the parts of a document is skipped.
-/

namespace SymbolSearch.Toml

open Text (Stops)

/--
The characters with which layout starts.
-/
def startsLayout (c : Char) : Bool :=
  isBlank c || c == '\n' || c == '\r' || c == '#'

theorem startsLayout_of_isBlank {c : Char} (h : isBlank c) : startsLayout c := by
  unfold startsLayout
  rw [h]
  rfl

theorem stops_isBlank_of_startsLayout {s : List Char} (h : Stops startsLayout s) : Stops isBlank s :=
  h.mono fun _ => startsLayout_of_isBlank

theorem Newline.stops_append {p : Char → Bool} (hlf : p '\n' = false) (hcr : p '\r' = false)
    {text : List Char} (h : Newline text) (s : List Char) : Stops p (text ++ s) := by
  cases h with
  | lf => exact .cons hlf
  | crlf => exact .cons hcr

theorem Newline.skipLayout_append {text : List Char} (h : Newline text) (s : List Char) :
    skipLayout (text ++ s) = skipLayout s := by
  cases h with
  | lf => exact skipLayout.eq_2 s
  | crlf => exact skipLayout.eq_3 s

theorem Newline.afterNewline?_append {text : List Char} (h : Newline text) (s : List Char) :
    afterNewline? (text ++ s) = some s := by
  cases h <;> rfl

theorem skipLayout_blank {c : Char} (hc : isBlank c) (s : List Char) :
    skipLayout (c :: s) = skipLayout s := by
  simp only [isBlank, Bool.or_eq_true, beq_iff_eq] at hc
  rcases hc with rfl | rfl
  all_goals
    rw [skipLayout]
    · rfl
    all_goals simp

theorem skipLayout_comment (s : List Char) :
    skipLayout ('#' :: s) = skipLayout (s.dropWhile isPrintable) := by
  rw [skipLayout]

theorem skipLayout_of_stops {s : List Char} (h : Stops startsLayout s) : skipLayout s = s := by
  cases s with
  | nil => exact skipLayout.eq_1
  | cons c s =>
    have hc := h c rfl
    simp only [startsLayout, Bool.or_eq_false_iff, beq_eq_false_iff_ne] at hc
    obtain ⟨⟨⟨hblank, hlf⟩, hcr⟩, hcomment⟩ := hc
    rw [skipLayout, hblank]
    · exact if_neg Bool.false_ne_true
    all_goals
      intros
      simp_all

theorem Comment.skipLayout_append {text : List Char} (h : Comment text) {s : List Char}
    (hs : Stops isPrintable s) : skipLayout (text ++ s) = skipLayout s := by
  obtain ⟨h⟩ := h
  rw [List.cons_append, skipLayout_comment,
    Text.dropWhile_append_of_stops (List.all_eq_true.mp h) hs]

theorem Layout.skipLayout_append {text : List Char} (h : Layout text) (s : List Char) :
    skipLayout (text ++ s) = skipLayout s := by
  induction h with
  | nil => rfl
  | blank hc hrest ih => rw [List.cons_append, skipLayout_blank hc, ih]
  | newline h hrest ih => rw [List.append_assoc, h.skipLayout_append, ih]
  | comment hcomment h hrest ih =>
    rw [List.append_assoc, List.append_assoc,
      hcomment.skipLayout_append (h.stops_append rfl rfl _), h.skipLayout_append, ih]

theorem Layout.skipLayout_append_of_stops {text s : List Char} (h : Layout text)
    (hs : Stops startsLayout s) : skipLayout (text ++ s) = s := by
  rw [h.skipLayout_append, skipLayout_of_stops hs]

theorem Layout.stops_append {p : Char → Bool} (hp : ∀ c, startsLayout c → p c = false)
    {text s : List Char} (h : Layout text) (hs : Stops p s) : Stops p (text ++ s) := by
  cases h with
  | nil => exact hs
  | blank hc hrest => exact .cons (hp _ (startsLayout_of_isBlank hc))
  | newline h hrest =>
    rw [List.append_assoc]
    exact h.stops_append (hp _ rfl) (hp _ rfl) _
  | comment hcomment h hrest =>
    obtain ⟨-⟩ := hcomment
    exact .cons (hp _ rfl)

theorem skipBlanks_append {blanks s : List Char} (h : blanks.all isBlank) (hs : Stops isBlank s) :
    skipBlanks (blanks ++ s) = s :=
  Text.dropWhile_append_of_stops (List.all_eq_true.mp h) hs

theorem Comment.skipComment_append {text : List Char} (h : Comment text) {s : List Char}
    (hs : Stops isPrintable s) : skipComment (text ++ s) = s := by
  obtain ⟨h⟩ := h
  exact Text.dropWhile_append_of_stops (List.all_eq_true.mp h) hs

theorem Ending.skipComment_append {text : List Char} (h : Ending text) {s : List Char}
    (hblank : Stops isBlank s) (hprintable : Stops isPrintable s) (hcomment : skipComment s = s) :
    skipComment (skipBlanks (text ++ s)) = s := by
  cases h with
  | blanks h => rw [skipBlanks_append h hblank, hcomment]
  | comment h hcomment =>
    rw [List.append_assoc, skipBlanks_append h, hcomment.skipComment_append hprintable]
    obtain ⟨-⟩ := hcomment
    exact .cons rfl

theorem Ending.afterLine?_newline {text newline : List Char} (h : Ending text)
    (hnewline : Newline newline) (s : List Char) :
    afterLine? (text ++ (newline ++ s)) = some s := by
  have hskip : skipComment (newline ++ s) = newline ++ s := by cases hnewline <;> rfl
  unfold afterLine?
  rw [h.skipComment_append (hnewline.stops_append rfl rfl s) (hnewline.stops_append rfl rfl s) hskip]
  split
  · next heq => cases hnewline <;> contradiction
  · exact hnewline.afterNewline?_append s

theorem Ending.afterLine?_self {text : List Char} (h : Ending text) :
    afterLine? text = some [] := by
  have hskip := h.skipComment_append .nil .nil rfl
  rw [List.append_nil] at hskip
  unfold afterLine?
  rw [hskip]

theorem stops_blanks_append {p : Char → Bool} (hp : ∀ c, startsLayout c → p c = false)
    {blanks s : List Char} (h : blanks.all isBlank) (hs : Stops p s) : Stops p (blanks ++ s) := by
  cases blanks with
  | nil => exact hs
  | cons c blanks =>
    rw [List.all_cons, Bool.and_eq_true] at h
    exact .cons (hp c (startsLayout_of_isBlank h.1))

theorem Ending.stops_append {p : Char → Bool} (hp : ∀ c, startsLayout c → p c = false)
    {text s : List Char} (h : Ending text) (hs : Stops p s) : Stops p (text ++ s) := by
  cases h with
  | blanks h => exact stops_blanks_append hp h hs
  | comment h hcomment =>
    obtain ⟨-⟩ := hcomment
    rw [List.append_assoc]
    exact stops_blanks_append hp h (.cons (hp _ rfl))

end SymbolSearch.Toml
