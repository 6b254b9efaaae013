import SymbolSearch.Proofs.Literal.Scanner.Quoted
import SymbolSearch.Proofs.Literal.Scanner.Trivia

/-!
This module contains the proof that the scan of a text by a cursor ends like the reading of the text
as a literal, and that nothing in it does harm: no place lies inside a character or outside the text,
each loop gets on, and all arrays that were entered are left.
-/

namespace SymbolSearch.Literal.Scan

variable {source : Source} {depth : Nat} {rest r : List Char}

theorem follows_number {c : Char} (hc : isNumberChar c) :
    Follows source depth (c :: r) (readNumber c r) number := by
  have hdrop : r.dropWhile isNumberChar <:+ c :: r :=
    (List.dropWhile_suffix _).trans (List.suffix_cons c r)
  unfold readNumber
  refine .of_suffix fun hsuffix => .bind .place (.bind (.row isNumberChar) ?_)
  rw [List.takeWhile_cons_of_pos hc]
  dsimp only
  cases number? (c :: r.takeWhile isNumberChar) with
  | none => exact .fail _
  | some value =>
    refine .bind (.moveTo (hdrop.trans hsuffix) ?_) (.pure value)
    have hle : Text.byteLength (c :: r) ≤ source.size := Text.byteLength_le_of_suffix hsuffix
    have hrow := Text.byteLength_takeWhile_add isNumberChar r
    simp only [Text.byteLength_cons] at hle ⊢
    omega

theorem follows_word {c : Char} (hc : isNameChar c) :
    Follows source depth (c :: r) (readWord c r) word := by
  have hdrop : r.dropWhile isNameChar <:+ c :: r :=
    (List.dropWhile_suffix _).trans (List.suffix_cons c r)
  unfold readWord
  refine .bind (.row isNameChar) ?_
  rw [List.takeWhile_cons_of_pos hc]
  dsimp only
  cases wordValue? (String.ofList (c :: r.takeWhile isNameChar)) with
  | none => exact .fail _
  | some value =>
    refine .bind (.advance hdrop ?_) (.pure value)
    rw [Text.byteLength_cons, Text.byteLength_cons, Nat.add_assoc, Text.byteLength_takeWhile_add]

/--
What follows an item of an array when `read` has been read, last item first.
-/
def separates (read : List Value) (rest : List Char) : Step (ForInStep (List Value)) :=
  match Literal.skipTrivia rest with
  | .error fault => .error fault
  | .ok [] => .error ⟨.openArray, []⟩
  | .ok (',' :: next) => .ok (.yield read, next)
  | .ok (']' :: next) => .ok (.done read.reverse, next)
  | .ok (c :: next) => .error ⟨.separator c, c :: next⟩

theorem follows_separator (read : List Value) (rest : List Char) :
    Follows source depth rest (separates read rest) (separator read) := by
  unfold separates
  split
  · next hskip => exact (follows_of_skipTrivia_error hskip).bind_error _
  · next hskip => exact .bind (follows_of_skipTrivia hskip) (.bind .bump_nil (.fail _))
  · next hskip => exact .bind (follows_of_skipTrivia hskip) (.bind (.bump_cons _) (.pure _))
  · next hskip => exact .bind (follows_of_skipTrivia hskip) (.bind (.bump_cons _) (.pure _))
  · next c next hcomma hbracket hskip =>
    -- Giving the character back leads to a text that the cursor has already left.
    refine .bind (follows_of_skipTrivia hskip) (.of_suffix fun hsuffix => .bind (.bump_cons c) ?_)
    split
    case h_3 heq =>
      cases heq
      exact .bind (.retreat hsuffix rfl) (.fail _)
    all_goals simp_all

variable {item : Scan Value} {reader : Reader Value}

theorem follows_arrayPart {start : List Char} {step : Step (ForInStep (List Value))}
    {read : List Value} (hbefore : Literal.skipTrivia rest = .ok start)
    (hbracket : ∀ r, start = ']' :: r → False)
    (hitem : Follows source depth start step (do separator ((← item) :: read))) :
    Follows source depth rest step (arrayPart item read) :=
  .bind (follows_of_skipTrivia hbefore) (.peek_of_other hbracket hitem)

section Array

variable (hitem : ∀ rest, Follows source depth rest (reader.read rest) item)
  (hunread : ∀ rest, unread Prod.snd (reader.read rest) <:+ rest)
include hitem

theorem follows_item {start : List Char} {value : Value} {step : Step (ForInStep (List Value))}
    {read : List Value} (hvalue : reader.read start = .ok (value, rest))
    (hstep : separates (value :: read) rest = step) :
    Follows source depth start step (do separator ((← item) :: read)) := by
  have hfollows := hitem start
  rw [hvalue] at hfollows
  rw [← hstep]
  exact .bind hfollows (follows_separator (value :: read) rest)

include hunread

theorem follows_items (r : List Char) :
    Follows source depth ('[' :: r) (readItems reader r []) (items item) := by
  refine .bind (.advance (List.suffix_cons _ r) rfl) ?_
  -- Reading an item is a round of the loop, whatever has been read before.
  generalize [] = read
  fun_induction readItems reader r read with
  | case1 r read fault hbefore =>
    exact .loop_error ((follows_of_skipTrivia_error hbefore).bind_error _)
  | case2 r read next hbefore =>
    refine .loop_done (.bind (follows_of_skipTrivia hbefore) (.peek_of_head ?_))
    exact .bind (.advance (List.suffix_cons _ next) rfl) (.pure _)
  | case3 r read start hbracket hbefore fault hvalue =>
    have hfollows := hitem start
    rw [hvalue] at hfollows
    exact .loop_error (follows_arrayPart hbefore hbracket (hfollows.bind_error _))
  | case4 r read start hbracket hbefore value rest hvalue fault hbehind =>
    apply Follows.loop_error
    apply follows_arrayPart hbefore hbracket
    exact follows_item hitem hvalue (by rw [separates, hbehind])
  | case5 r read start hbracket hbefore value rest hvalue hbehind =>
    apply Follows.loop_error
    apply follows_arrayPart hbefore hbracket
    exact follows_item hitem hvalue (by rw [separates, hbehind])
  | case6 r read start hbracket hbefore value rest hvalue next hbehind ih =>
    have hstart : start <:+ r := by
      have hsuffix := unread_skipTrivia_suffix r
      rwa [hbefore] at hsuffix
    have hrest : rest <:+ start := suffix_of_eq_ok (hunread start) hvalue
    have hnext : ',' :: next <:+ rest := by
      have hsuffix := unread_skipTrivia_suffix rest
      rwa [hbehind] at hsuffix
    have hsuffix := (hnext.trans hrest).trans hstart
    refine .loop_yield ?_ ?_ ih
    · apply follows_arrayPart hbefore hbracket
      exact follows_item hitem hvalue (by simp [separates, hbehind])
    · exact Text.byteLength_lt_of_suffix ((List.suffix_cons _ next).trans hsuffix)
        hsuffix.length_le
  | case7 r read start hbracket hbefore value rest hvalue next hbehind =>
    apply Follows.loop_done
    apply follows_arrayPart hbefore hbracket
    exact follows_item hitem hvalue (by simp [separates, hbehind])
  | case8 r read start hbracket hbefore value rest hvalue c next hcomma hclose hbehind =>
    apply Follows.loop_error
    apply follows_arrayPart hbefore hbracket
    apply follows_item hitem hvalue
    rw [separates, hbehind]
    simp

end Array

theorem follows_array (hdepth : depth < maxDepth)
    (hitem : ∀ rest, Follows source (depth + 1) rest (reader.read rest) item)
    (hunread : ∀ rest, unread Prod.snd (reader.read rest) <:+ rest) (r : List Char) :
    Follows source depth ('[' :: r) (mapRead Value.array (readItems reader r [])) (array item) := by
  apply Follows.call
  · refine .bind .depth ?_
    rw [if_neg (Nat.not_le_of_lt hdepth)]
    exact (Follows.nested (follows_items hitem hunread r)).map Value.array
  · rw [unread_mapRead]
    exact (unread_readItems_suffix hunread r []).trans (List.suffix_cons _ r)

theorem follows_array_nesting (hdepth : maxDepth ≤ depth) (rest : List Char) :
    Follows source depth rest (.error ⟨.nesting, rest⟩) (array item) := by
  apply Follows.call
  · refine .bind .depth ?_
    rw [if_pos hdepth]
    exact .fail .nesting
  · exact List.suffix_refl rest

theorem follows_value {item? : Option (Reader Value)}
    (harray : ∀ r, Follows source depth ('[' :: r) (readValue item? ('[' :: r)) (array item))
    (hunread : ∀ reader ∈ item?, ∀ rest, unread Prod.snd (reader.read rest) <:+ rest)
    (rest : List Char) : Follows source depth rest (readValue item? rest) (value item) := by
  apply Follows.call
  · refine .bind .peek ?_
    cases rest with
    | nil =>
      unfold readValue
      exact .fail .endOfText
    | cons c r =>
      dsimp only [List.head?_cons]
      by_cases hbracket : c = '['
      · subst hbracket
        rw [if_pos rfl]
        exact harray r
      unfold readValue
      dsimp only
      rw [if_neg hbracket, if_neg hbracket]
      split
      · next hquote =>
        have hbody := follows_stringBody source depth c r
        refine .bind (.advance (List.suffix_cons c r) ?_) (hbody.map _)
        rcases hquote with rfl | rfl <;> rfl
      · split
        · next hnumber =>
          apply follows_number
          rcases hnumber with rfl | hdigit
          · rfl
          · simp [isNumberChar, hdigit]
        · split
          · next hword =>
            apply follows_word
            simp [isNameChar, Char.isAlphanum, hword]
          · exact .fail (.character c)
  · exact unread_readValue_suffix hunread rest

/-- The cursor counts up to the depth from which the reading counts down. -/
theorem follows_valueWithin (source : Source) {levels depth : Nat} (h : levels + depth = maxDepth)
    (rest : List Char) :
    Follows source depth rest ((valueReader levels).read rest) (valueWithin levels) := by
  induction levels generalizing depth rest with
  | zero =>
    change Follows source depth rest (readValue none rest) _
    apply follows_value
    · intro r
      exact follows_array_nesting (by omega) ('[' :: r)
    · intro reader hreader
      contradiction
  | succ levels ih =>
    change Follows source depth rest (readValue (some (valueReader levels)) rest) _
    apply follows_value
    · exact follows_array (by omega) (ih (by omega)) (unread_valueReader_suffix levels)
    · intro reader hreader
      cases hreader
      exact unread_valueReader_suffix levels

theorem follows_skipSemicolon (source : Source) (depth : Nat) (rest : List Char) :
    Follows source depth rest ((Literal.skipSemicolon rest).map (Prod.mk ())) skipSemicolon := by
  unfold Literal.skipSemicolon
  split
  · next r =>
    apply Follows.peek_of_head
    exact .bind (.advance (List.suffix_cons _ r) rfl) (follows_skipTrivia source depth r)
  · next hsemicolon => exact .peek_of_other hsemicolon (.pure ())

theorem follows_literal_end (value : Value) (rest : List Char) :
    Follows source depth rest
      ((match rest with
        | [] => return value
        | rest => throw ⟨.trailing, rest⟩ : Except Fault Value).map (·, []))
      (do if (← place) < (← read).size then fail .trailing else return value) := by
  refine .of_suffix fun hsuffix => .bind .place (.bind .read ?_)
  have hle : Text.byteLength rest ≤ source.size := Text.byteLength_le_of_suffix hsuffix
  cases rest with
  | nil =>
    have hnot : ¬source.size - Text.byteLength [] < source.size := Nat.lt_irrefl _
    rw [if_neg hnot]
    exact .pure value
  | cons c r =>
    have hpos := Text.byteLength_pos (List.cons_ne_nil c r)
    rw [if_pos (by omega)]
    exact .fail .trailing

theorem follows_literal (source : Source) :
    Follows source 0 source.text ((readLiteral source.text).map (·, [])) literal := by
  unfold readLiteral
  change Follows source 0 source.text ((·, []) <$> _ : Except Fault _) literal
  simp only [map_bind]
  refine .bind_map (follows_skipTrivia source 0 source.text) fun start => ?_
  refine .bind_map (g := id) ?_ fun (value, behind) => ?_
  · change Follows source 0 start (id <$> _ : Except Fault _) _
    rw [id_map]
    exact follows_valueWithin source (Nat.add_zero maxDepth) start
  refine .bind_map (follows_skipTrivia source 0 behind) fun behind => ?_
  exact .bind_map (follows_skipSemicolon source 0 behind) (follows_literal_end value)

/--
Whatever the text, its scan ends as the reading of it does, and all that has happened until then was
safe. In particular it neither breaks off nor gets stuck.
-/
theorem literal_isSafe (text : List Char) (base : Nat) :
    ∃ s : State,
      literal ⟨text, base⟩ {} =
        (match readLiteral text with
        | .ok value => .ok value s
        | .error fault => .error (.fault (base + fault.offset text) fault.cause) s) ∧
      (∀ event ∈ s.events, event.IsSafe text) ∧
      s.cursor.depth = 0 := by
  have hend := follows_literal ⟨text, base⟩ {} (Stands.initial ⟨text, base⟩)
  generalize literal ⟨text, base⟩ {} = run at hend ⊢
  dsimp only at hend
  cases hread : readLiteral text with
  | ok value =>
    rw [hread] at hend
    cases hend with
    | @ok _ _ s hs => exact ⟨s, rfl, hs.isSafe, hs.depth_eq⟩
  | error fault =>
    rw [hread] at hend
    cases hend with
    | @error _ s hs => exact ⟨s, rfl, hs.isSafe, hs.depth_eq⟩

end SymbolSearch.Literal.Scan
