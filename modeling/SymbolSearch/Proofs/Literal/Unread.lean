import SymbolSearch.Literal.Reader
import SymbolSearch.Proofs.Except

/-!
This module contains the proof that what is left unread is always an end of the text that was to be
read, at a fault as well as behind a value. So the place of a fault lies inside the text.
-/

namespace SymbolSearch.Literal

/--
The text behind what was read or, at a fault, the text that was not yet read.
-/
def unread (rest : α → List Char) : Except Fault α → List Char
  | .ok a => rest a
  | .error fault => fault.rest

theorem unread_mapRead (f : α → β) (step : Step α) :
    unread Prod.snd (mapRead f step) = unread Prod.snd step := by
  cases step <;> rfl

theorem closeComment?_suffix {s r : List Char} (h : closeComment? s = some r) : r <:+ s := by
  fun_induction closeComment? s with
  | case1 r' =>
    cases h
    exact ⟨['*', '/'], rfl⟩
  | case2 c s _ ih => exact (ih h).trans (List.suffix_cons c s)
  | case3 => contradiction

theorem unread_skipTrivia_suffix (s : List Char) : unread id (skipTrivia s) <:+ s := by
  fun_induction skipTrivia s with
  | case1 => exact List.suffix_refl _
  | case2 r ih => exact ih.trans ((List.dropWhile_suffix _).trans ⟨['/', '/'], rfl⟩)
  | case3 => exact List.suffix_refl _
  | case4 s r hclose ih => exact ih.trans ((closeComment?_suffix hclose).trans ⟨['/', '*'], rfl⟩)
  | case5 c r _ _ _ ih => exact ih.trans (List.suffix_cons c r)
  | case6 => exact List.suffix_refl _

theorem unread_hexDigits_suffix (count : Nat) (s : List Char) :
    unread Prod.snd (hexDigits count s) <:+ s := by
  unfold hexDigits
  dsimp only
  split
  · exact List.drop_suffix count s
  · exact List.suffix_refl s

theorem unread_bracedEscape_suffix (s : List Char) : unread Prod.snd (bracedEscape s) <:+ s := by
  have hdrop : s.dropWhile (· != '}') <:+ s := List.dropWhile_suffix _
  unfold bracedEscape
  split
  · exact List.suffix_refl s
  · next heq =>
    split
    · exact List.suffix_refl s
    · rw [heq] at hdrop
      exact (List.suffix_cons _ _).trans hdrop

theorem unread_unicodeEscape_suffix (s : List Char) : unread Prod.snd (unicodeEscape s) <:+ s := by
  unfold unicodeEscape
  split
  · exact (unread_bracedEscape_suffix _).trans (List.suffix_cons _ _)
  · have hhigh := unread_hexDigits_suffix 4 s
    split
    · next heq =>
      rw [heq] at hhigh
      exact hhigh
    · next heq =>
      rw [heq] at hhigh
      split
      · split
        · next next =>
          have hlow := unread_hexDigits_suffix 4 next
          have hnext : next <:+ s := List.IsSuffix.trans ⟨['\\', 'u'], rfl⟩ hhigh
          split
          · next heq =>
            rw [heq] at hlow
            exact hlow.trans hnext
          · next heq =>
            rw [heq] at hlow
            split
            · exact hlow.trans hnext
            · exact hhigh
        · exact hhigh
      · exact hhigh

theorem unread_escape_suffix (s : List Char) : unread Prod.snd (escape s) <:+ s := by
  unfold escape
  split
  case h_1 => exact List.suffix_refl _
  case h_9 r => exact List.suffix_cons _ r
  case h_10 r => exact ⟨['\r', '\n'], rfl⟩
  case h_12 r =>
    rw [unread_mapRead]
    exact (unread_hexDigits_suffix 2 r).trans (List.suffix_cons _ r)
  case h_13 r =>
    rw [unread_mapRead]
    exact (unread_unicodeEscape_suffix r).trans (List.suffix_cons _ r)
  all_goals exact List.suffix_cons _ _

theorem unread_stringBody_suffix (quote : Char) (s read : List Char) :
    unread Prod.snd (stringBody quote s read) <:+ s := by
  fun_induction stringBody quote s read with
  | case1 => exact List.suffix_refl _
  | case2 => exact List.suffix_cons _ _
  | case3 read s fault hescape =>
    have hsuffix := unread_escape_suffix s
    rw [hescape] at hsuffix
    exact hsuffix.trans (List.suffix_cons _ s)
  | case4 read s c? rest hescape _ ih =>
    have hsuffix := unread_escape_suffix s
    rw [hescape] at hsuffix
    exact ih.trans (hsuffix.trans (List.suffix_cons _ s))
  | case5 => exact List.suffix_cons _ _
  | case6 read c s _ _ _ ih => exact ih.trans (List.suffix_cons c s)

theorem unread_readNumber_suffix (c : Char) (r : List Char) :
    unread Prod.snd (readNumber c r) <:+ c :: r := by
  unfold readNumber
  dsimp only
  split
  · exact (List.dropWhile_suffix _).trans (List.suffix_cons c r)
  · exact List.suffix_refl _

theorem unread_readWord_suffix (c : Char) (r : List Char) :
    unread Prod.snd (readWord c r) <:+ c :: r := by
  unfold readWord
  dsimp only
  split
  · exact (List.dropWhile_suffix _).trans (List.suffix_cons c r)
  · exact List.suffix_refl _

theorem unread_readItems_suffix {item : Reader Value}
    (hitem : ∀ s, unread Prod.snd (item.read s) <:+ s) (s : List Char) (items : List Value) :
    unread Prod.snd (readItems item s items) <:+ s := by
  have hskip {s r : List Char} (h : skipTrivia s = .ok r) : r <:+ s := by
    have hsuffix := unread_skipTrivia_suffix s
    rwa [h] at hsuffix
  have hread {s r : List Char} {value : Value} (h : item.read s = .ok (value, r)) : r <:+ s := by
    have hsuffix := hitem s
    rwa [h] at hsuffix
  fun_induction readItems item s items with
  | case1 s items fault hbefore =>
    have hsuffix := unread_skipTrivia_suffix s
    rwa [hbefore] at hsuffix
  | case2 s items rest hbefore => exact (List.suffix_cons _ rest).trans (hskip hbefore)
  | case3 s items start _ hbefore fault hfault =>
    have hsuffix := hitem start
    rw [hfault] at hsuffix
    exact hsuffix.trans (hskip hbefore)
  | case4 s items start _ hbefore value r hvalue fault hbehind =>
    have hsuffix := unread_skipTrivia_suffix r
    rw [hbehind] at hsuffix
    exact hsuffix.trans ((hread hvalue).trans (hskip hbefore))
  | case5 => exact List.nil_suffix
  | case6 s items start _ hbefore value r hvalue next hbehind ih =>
    have hnext : next <:+ r := (List.suffix_cons _ next).trans (hskip hbehind)
    exact ih.trans (hnext.trans ((hread hvalue).trans (hskip hbefore)))
  | case7 s items start _ hbefore value r hvalue next hbehind =>
    have hnext : next <:+ r := (List.suffix_cons _ next).trans (hskip hbehind)
    exact hnext.trans ((hread hvalue).trans (hskip hbefore))
  | case8 s items start _ hbefore value r hvalue c next _ _ hbehind =>
    exact (hskip hbehind).trans ((hread hvalue).trans (hskip hbefore))

theorem unread_readValue_suffix {item? : Option (Reader Value)}
    (hitem : ∀ item ∈ item?, ∀ s, unread Prod.snd (item.read s) <:+ s) (s : List Char) :
    unread Prod.snd (readValue item? s) <:+ s := by
  unfold readValue
  split
  · exact List.suffix_refl _
  · next c r =>
    split
    · split
      · exact List.suffix_refl _
      · next item =>
        rw [unread_mapRead]
        exact (unread_readItems_suffix (hitem item rfl) r []).trans (List.suffix_cons c r)
    · split
      · rw [unread_mapRead]
        exact (unread_stringBody_suffix c r []).trans (List.suffix_cons c r)
      · split
        · exact unread_readNumber_suffix c r
        · split
          · exact unread_readWord_suffix c r
          · exact List.suffix_refl _

theorem unread_valueReader_suffix (depth : Nat) (s : List Char) :
    unread Prod.snd ((valueReader depth).read s) <:+ s := by
  induction depth generalizing s with
  | zero =>
    change unread Prod.snd (readValue none s) <:+ s
    apply unread_readValue_suffix
    intro item hitem
    contradiction
  | succ depth ih =>
    change unread Prod.snd (readValue (some (valueReader depth)) s) <:+ s
    apply unread_readValue_suffix
    intro item hitem
    cases hitem
    exact ih

theorem unread_skipSemicolon_suffix (s : List Char) : unread id (skipSemicolon s) <:+ s := by
  unfold skipSemicolon
  split
  · exact (unread_skipTrivia_suffix _).trans (List.suffix_cons _ _)
  · exact List.suffix_refl _

theorem rest_suffix_of_readLiteral_eq_error {s : List Char} {fault : Fault}
    (h : readLiteral s = .error fault) : fault.rest <:+ s := by
  unfold readLiteral at h
  have hstart := unread_skipTrivia_suffix s
  rcases bind_eq_error_iff.mp h with heq | ⟨start, heq, h⟩
  · rwa [heq] at hstart
  rw [heq] at hstart
  have hread := unread_valueReader_suffix maxDepth start
  rcases bind_eq_error_iff.mp h with heq | ⟨⟨value, behind⟩, heq, h⟩
  · rw [heq] at hread
    exact hread.trans hstart
  rw [heq] at hread
  have hbehind := unread_skipTrivia_suffix behind
  rcases bind_eq_error_iff.mp h with heq | ⟨r, heq, h⟩
  · rw [heq] at hbehind
    exact hbehind.trans (hread.trans hstart)
  rw [heq] at hbehind
  have hend := unread_skipSemicolon_suffix r
  rcases bind_eq_error_iff.mp h with heq | ⟨rest, heq, h⟩
  · rw [heq] at hend
    exact hend.trans (hbehind.trans (hread.trans hstart))
  rw [heq] at hend
  split at h
  · contradiction
  · cases h
    exact hend.trans (hbehind.trans (hread.trans hstart))

end SymbolSearch.Literal
