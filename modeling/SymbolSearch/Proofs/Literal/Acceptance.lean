import SymbolSearch.Proofs.Except
import SymbolSearch.Proofs.Literal.Escape
import SymbolSearch.Proofs.Literal.Number
import SymbolSearch.Proofs.Literal.Reader

/-!
This module contains the proof that a text is read as a literal exactly if the grammar has it, and that
what is read is the value that the text writes.
-/

namespace SymbolSearch.Literal

open Text (Stops)

/--
The characters that a value other than an array starts with.
-/
def startsScalar (c : Char) : Bool :=
  c.isDigit || ['-', '"', '\'', 'n', 'u', 't', 'f'].contains c

theorem startsGap_of_startsScalar {c : Char} (h : startsScalar c) : startsGap c = false := by
  unfold startsScalar at h
  rcases Bool.or_eq_true_iff.mp h with hdigit | hmem
  · exact startsGap_of_isDigit hdigit
  · have hall : ['-', '"', '\'', 'n', 'u', 't', 'f'].all (startsGap · == false) := by decide
    exact beq_iff_eq.mp (List.all_eq_true.mp hall c (List.contains_iff_mem.mp hmem))

theorem exists_cons_of_mem_words {name : List Char} {value : Value} (h : (name, value) ∈ words) :
    ∃ c r, name = c :: r ∧ startsScalar c ∧ r.all isNameChar ∧ value.depth = 0 := by
  simp only [words, List.mem_cons, Prod.mk.injEq, List.not_mem_nil, or_false] at h
  rcases h with ⟨rfl, rfl⟩ | ⟨rfl, rfl⟩ | ⟨rfl, rfl⟩ | ⟨rfl, rfl⟩
  all_goals exact ⟨_, _, rfl, by decide, by decide, rfl⟩

theorem wordValue?_ofList (name : List Char) :
    wordValue? (.ofList name) =
      if name = ['n', 'u', 'l', 'l'] ∨ name = ['u', 'n', 'd', 'e', 'f', 'i', 'n', 'e', 'd'] then
        some .null
      else if name = ['t', 'r', 'u', 'e'] then some (.boolean true)
      else if name = ['f', 'a', 'l', 's', 'e'] then some (.boolean false)
      else none := by
  have hname : ∀ word : String, String.ofList name = word ↔ name = word.toList := by
    intro word
    rw [← String.toList_inj, String.toList_ofList]
  unfold wordValue?
  simp only [beq_iff_eq, Bool.or_eq_true, hname]
  rfl

theorem wordValue?_eq_some_iff {name : List Char} {value : Value} :
    wordValue? (.ofList name) = some value ↔ (name, value) ∈ words := by
  rw [wordValue?_ofList]
  simp only [words, List.mem_cons, Prod.mk.injEq, List.not_mem_nil, or_false]
  constructor
  · intro h
    split at h
    · next hnull =>
      cases h
      rcases hnull with rfl | rfl
      · exact .inl ⟨rfl, rfl⟩
      · exact .inr (.inl ⟨rfl, rfl⟩)
    · split at h
      · next htrue =>
        cases h
        exact .inr (.inr (.inl ⟨htrue, rfl⟩))
      · split at h
        · next hfalse =>
          cases h
          exact .inr (.inr (.inr ⟨hfalse, rfl⟩))
        · contradiction
  · rintro (⟨rfl, rfl⟩ | ⟨rfl, rfl⟩ | ⟨rfl, rfl⟩ | ⟨rfl, rfl⟩) <;> rfl

theorem readWord_eq_ok_iff {c : Char} {r rest : List Char} {value : Value} :
    readWord c r = .ok (value, rest) ↔
      ∃ name, c :: r = name ++ rest ∧ (name, value) ∈ words ∧ Stops isNameChar rest := by
  constructor
  · intro h
    unfold readWord at h
    dsimp only at h
    split at h
    · next hword =>
      cases h
      refine ⟨_, ?_, wordValue?_eq_some_iff.mp hword, Text.stops_dropWhile r⟩
      rw [List.cons_append, List.takeWhile_append_dropWhile]
    · contradiction
  · rintro ⟨name, htext, hname, hstops⟩
    obtain ⟨d, s, rfl, -, hall, -⟩ := exists_cons_of_mem_words hname
    cases htext
    exact readWord_append hall hstops (wordValue?_eq_some_iff.mpr hname)

theorem Writes.of_head?_eq {text behind behind' : List Char} {value : Value}
    (h : Writes text behind value) (hhead : behind'.head? = behind.head?) :
    Writes text behind' value := by
  cases h with
  | word hname hstops => exact .word hname (hstops.of_head?_eq hhead)
  | number numeral hfinite hstops => exact .number numeral hfinite (hstops.of_head?_eq hhead)
  | string quote hbody => exact .string quote hbody
  | array hitems => exact .array hitems

/--
What a reader takes of a text writes the value that is read, and arrays lie at most so deep inside each
other in that.
-/
def Reader.IsSound (reader : Reader Value) (depth : Nat) : Prop :=
  ∀ {s r : List Char} {value : Value}, reader.read s = .ok (value, r) →
    ∃ text, s = text ++ r ∧ Writes text r value ∧ value.depth ≤ depth

theorem Writes.text_eq_cons {text behind : List Char} {value : Value} (h : Writes text behind value) :
    ∃ c r, text = c :: r ∧ (startsScalar c ∨ c = '[' ∧ ∃ items, WritesItems r items) := by
  cases h with
  | word hname =>
    obtain ⟨c, r, rfl, hc, -, -⟩ := exists_cons_of_mem_words hname
    exact ⟨c, r, rfl, .inl hc⟩
  | number numeral =>
    obtain ⟨c, r, htext, hc⟩ := numeral.text_eq_cons
    refine ⟨c, r, htext, .inl ?_⟩
    rcases hc with rfl | hc
    · decide
    · rw [startsScalar, hc, Bool.true_or]
  | string quote =>
    refine ⟨quote.char, _, rfl, .inl ?_⟩
    cases quote <;> decide
  | array hitems => exact ⟨'[', _, rfl, .inr ⟨rfl, _, hitems⟩⟩

theorem Writes.skipTrivia_append {text behind : List Char} {value : Value}
    (h : Writes text behind value) (gaps : Gaps) (s : List Char) :
    skipTrivia (gaps.text ++ (text ++ s)) = .ok (text ++ s) := by
  obtain ⟨c, r, rfl, hc⟩ := h.text_eq_cons
  apply gaps.skipTrivia_text_append_of_stops
  rcases hc with hscalar | ⟨rfl, -⟩
  · exact .cons (startsGap_of_startsScalar hscalar)
  · exact .cons (by decide)

theorem Writes.head?_append_ne {text behind : List Char} {value : Value}
    (h : Writes text behind value) (s : List Char) : (text ++ s).head? ≠ some ']' := by
  obtain ⟨c, r, rfl, hc⟩ := h.text_eq_cons
  intro hhead
  cases hhead
  rcases hc with hscalar | ⟨hbracket, -⟩ <;> contradiction

theorem Writes.append_ne_nil {text behind : List Char} {value : Value} (h : Writes text behind value)
    (s : List Char) : text ++ s ≠ [] := by
  obtain ⟨c, r, rfl, -⟩ := h.text_eq_cons
  exact List.cons_ne_nil _ _

/-- The items of an array end with its bracket, so what stands behind it does not matter. -/
theorem exists_writesItems_of_readItems {item : Reader Value} {depth : Nat} (hitem : item.IsSound depth)
    {s r : List Char} {items values : List Value} (h : readItems item s items = .ok (values, r)) :
    ∃ text rest, s = text ++ r ∧ WritesItems text rest ∧ values = items.reverse ++ rest ∧
      Value.depth.go rest ≤ depth := by
  fun_induction readItems item s items with
  | case1 => contradiction
  | case2 s items rest hbefore =>
    cases h
    obtain ⟨gaps, rfl⟩ := exists_gaps_of_skipTrivia hbefore (List.cons_ne_nil _ _)
    exact ⟨_, [], by simp, .close gaps, by simp, Nat.zero_le _⟩
  | case3 => contradiction
  | case4 => contradiction
  | case5 => contradiction
  | case6 s items start _ hbefore value behind hread next hbehind ih =>
    obtain ⟨text, rest, rfl, hrest, rfl, hdepth⟩ := ih h
    obtain ⟨after, rfl⟩ := exists_gaps_of_skipTrivia hbehind (List.cons_ne_nil _ _)
    obtain ⟨itemText, rfl, hwrites, hle⟩ := hitem hread
    obtain ⟨before, rfl⟩ := exists_gaps_of_skipTrivia hbefore (hwrites.append_ne_nil _)
    have hhead : (after.text ++ ',' :: text).head? = (after.text ++ ',' :: (text ++ r)).head? := by
      simp
    refine ⟨_, value :: rest, ?_, .more before after (hwrites.of_head?_eq hhead) hrest, by simp, ?_⟩
    · simp
    · exact Nat.max_le.mpr ⟨hle, hdepth⟩
  | case7 s items start _ hbefore value behind hread next hbehind =>
    cases h
    obtain ⟨after, rfl⟩ := exists_gaps_of_skipTrivia hbehind (List.cons_ne_nil _ _)
    obtain ⟨itemText, rfl, hwrites, hle⟩ := hitem hread
    obtain ⟨before, rfl⟩ := exists_gaps_of_skipTrivia hbefore (hwrites.append_ne_nil _)
    have hhead : (after.text ++ [']']).head? = (after.text ++ ']' :: r).head? := by
      simp
    refine ⟨_, [value], ?_, .last before after (hwrites.of_head?_eq hhead), by simp, ?_⟩
    · simp
    · exact Nat.max_le.mpr ⟨hle, Nat.zero_le _⟩
  | case8 => contradiction

theorem exists_writes_of_readValue {item? : Option (Reader Value)} {depth : Nat}
    (hitem : ∀ item ∈ item?, ∃ level, depth = level + 1 ∧ item.IsSound level) {s r : List Char}
    {value : Value} (h : readValue item? s = .ok (value, r)) :
    ∃ text, s = text ++ r ∧ Writes text r value ∧ value.depth ≤ depth := by
  unfold readValue at h
  split at h
  · contradiction
  · next c s =>
    split at h
    · next hbracket =>
      subst hbracket
      split at h
      · contradiction
      · next item =>
        obtain ⟨values, hitems, rfl⟩ := mapRead_eq_ok h
        obtain ⟨level, rfl, hsound⟩ := hitem item rfl
        obtain ⟨text, rest, rfl, hwrites, rfl, hdepth⟩ := exists_writesItems_of_readItems hsound hitems
        exact ⟨_, rfl, .array hwrites, Nat.succ_le_succ hdepth⟩
    · split at h
      · next hquote =>
        obtain ⟨quote, rfl⟩ : ∃ quote : Quote, c = quote.char := by
          rcases hquote with rfl | rfl
          · exact ⟨.double, rfl⟩
          · exact ⟨.single, rfl⟩
        obtain ⟨chars, hread, rfl⟩ := mapRead_eq_ok h
        obtain ⟨text, rfl, hbody⟩ := stringBody_eq_ok_iff.mp hread
        exact ⟨_, rfl, .string quote hbody, Nat.zero_le _⟩
      · split at h
        · next hc =>
          obtain ⟨numeral, htext, hfinite, hstops, rfl⟩ := (readNumber_eq_ok_iff hc).mp h
          refine ⟨_, htext, .number numeral hfinite hstops, ?_⟩
          unfold Numeral.value
          dsimp only
          split <;> exact Nat.zero_le _
        · split at h
          · obtain ⟨name, htext, hname, hstops⟩ := readWord_eq_ok_iff.mp h
            obtain ⟨-, -, -, -, -, hzero⟩ := exists_cons_of_mem_words hname
            refine ⟨_, htext, .word hname hstops, ?_⟩
            rw [hzero]
            exact Nat.zero_le _
          · contradiction

theorem valueReader_isSound (depth : Nat) : (valueReader depth).IsSound depth := by
  intro s r value h
  induction depth generalizing s r value with
  | zero =>
    have hread : readValue none s = .ok (value, r) := h
    refine exists_writes_of_readValue ?_ hread
    intro item hitem
    contradiction
  | succ depth ih =>
    have hread : readValue (some (valueReader depth)) s = .ok (value, r) := h
    refine exists_writes_of_readValue ?_ hread
    intro item hitem
    cases hitem
    exact ⟨depth, rfl, ih⟩

theorem readValue_word {name behind : List Char} {value : Value} (h : (name, value) ∈ words)
    (hstops : Stops isNameChar behind) (item? : Option (Reader Value)) :
    readValue item? (name ++ behind) = .ok (value, behind) := by
  have hread : ∀ c r, name ++ behind = c :: r → readWord c r = .ok (value, behind) := by
    intro c r heq
    exact readWord_eq_ok_iff.mpr ⟨name, heq.symm, h, hstops⟩
  simp only [words, List.mem_cons, Prod.mk.injEq, List.not_mem_nil, or_false] at h
  rcases h with ⟨rfl, -⟩ | ⟨rfl, -⟩ | ⟨rfl, -⟩ | ⟨rfl, -⟩ <;> exact hread _ _ rfl

mutual

theorem Writes.read_append {text behind : List Char} {value : Value} (h : Writes text behind value)
    (depth : Nat) (hdepth : value.depth ≤ depth) {s : List Char} (hs : s.head? = behind.head?) :
    (valueReader depth).read (text ++ s) = .ok (value, s) := by
  obtain ⟨item?, hread⟩ := valueReader_read depth
  cases h with
  | word hname hstops =>
    rw [hread]
    exact readValue_word hname (hstops.of_head?_eq hs) item?
  | number numeral hfinite hstops =>
    obtain ⟨c, r, htext, hc⟩ := numeral.text_eq_cons
    rw [hread, htext, List.cons_append, readValue_number item? hc]
    apply (readNumber_eq_ok_iff hc).mpr
    exact ⟨numeral, by rw [htext, List.cons_append], hfinite, hstops.of_head?_eq hs, rfl⟩
  | string quote hbody =>
    rw [hread, List.cons_append, readValue_quote, stringBody_eq_ok_iff.mpr ⟨_, rfl, hbody⟩]
    rfl
  | array hitems =>
    cases depth with
    | zero => contradiction
    | succ depth =>
      have hread := hitems.readItems_append depth (Nat.le_of_succ_le_succ hdepth) s []
      change mapRead Value.array (readItems (valueReader depth) (_ ++ s) []) = _
      rw [hread]
      rfl

theorem WritesItems.readItems_append {text : List Char} {items : List Value}
    (h : WritesItems text items) (depth : Nat) (hdepth : Value.depth.go items ≤ depth)
    (s : List Char) (read : List Value) :
    readItems (valueReader depth) (text ++ s) read = .ok (read.reverse ++ items, s) := by
  cases h with
  | close before =>
    have hclose : Stops startsGap (']' :: s) := .cons (by decide)
    have hbefore := before.skipTrivia_text_append_of_stops hclose
    rw [List.append_assoc, List.singleton_append, readItems_close hbefore, List.append_nil]
  | @last text item before behind h =>
    have hclose : Stops startsGap (']' :: s) := .cons (by decide)
    have hbehind := behind.skipTrivia_text_append_of_stops hclose
    have hbefore := h.skipTrivia_append before (behind.text ++ ']' :: s)
    have hread := h.read_append depth (Nat.le_trans (Nat.le_max_left _ _) hdepth)
      (show (behind.text ++ ']' :: s).head? = _ by simp)
    simp only [List.append_assoc, List.singleton_append]
    rw [readItems_last hbefore (h.head?_append_ne _) hread hbehind, List.reverse_cons]
  | @more text rest item items before behind h hrest =>
    have hcomma : Stops startsGap (',' :: (rest ++ s)) := .cons (by decide)
    have hbehind := behind.skipTrivia_text_append_of_stops hcomma
    have hbefore := h.skipTrivia_append before (behind.text ++ ',' :: (rest ++ s))
    have hread := h.read_append depth (Nat.le_trans (Nat.le_max_left _ _) hdepth)
      (show (behind.text ++ ',' :: (rest ++ s)).head? = _ by simp)
    have hitems := hrest.readItems_append depth (Nat.le_trans (Nat.le_max_right _ _) hdepth) s
      (item :: read)
    simp only [List.append_assoc, List.cons_append]
    rw [readItems_more hbefore (h.head?_append_ne _) hread hbehind, hitems]
    simp

end

theorem Ending.skipTrivia_text (ending : Ending) :
    ∃ r, skipTrivia ending.text = .ok r ∧ skipSemicolon r = .ok [] := by
  unfold text
  cases ending.semicolon? with
  | none => exact ⟨[], ending.tail.skipTrivia_text, rfl⟩
  | some gaps =>
    have hsemicolon : Stops startsGap (';' :: ending.tail.text) := .cons (by decide)
    refine ⟨';' :: ending.tail.text, ?_, ending.tail.skipTrivia_text⟩
    rw [Option.elim_some, List.append_assoc, List.singleton_append]
    exact gaps.skipTrivia_text_append_of_stops hsemicolon

theorem exists_ending_of_skipTrivia {s r : List Char} (h : skipTrivia s = .ok r)
    (hr : skipSemicolon r = .ok []) : ∃ ending : Ending, s = ending.text := by
  unfold skipSemicolon at hr
  split at hr
  · obtain ⟨gaps, rfl⟩ := exists_gaps_of_skipTrivia h (List.cons_ne_nil _ _)
    obtain ⟨tail, rfl, -⟩ := exists_tail_of_skipTrivia hr
    exact ⟨⟨some gaps, tail⟩, by simp [Ending.text]⟩
  · cases hr
    obtain ⟨tail, rfl, -⟩ := exists_tail_of_skipTrivia h
    exact ⟨⟨none, tail⟩, by simp [Ending.text]⟩

theorem exists_writes_of_readLiteral {s : List Char} {value : Value} (h : readLiteral s = .ok value) :
    value.depth ≤ maxDepth ∧ ∃ (before : Gaps) (text : List Char) (ending : Ending),
      s = before.text ++ (text ++ ending.text) ∧ Writes text ending.text value := by
  unfold readLiteral at h
  obtain ⟨start, hstart, h⟩ := bind_eq_ok_iff.mp h
  obtain ⟨⟨read, behind⟩, hread, h⟩ := bind_eq_ok_iff.mp h
  obtain ⟨r, hbehind, h⟩ := bind_eq_ok_iff.mp h
  obtain ⟨rest, hsemicolon, h⟩ := bind_eq_ok_iff.mp h
  split at h
  · cases h
    obtain ⟨text, rfl, hwrites, hdepth⟩ := valueReader_isSound maxDepth hread
    obtain ⟨before, rfl⟩ := exists_gaps_of_skipTrivia hstart (hwrites.append_ne_nil _)
    obtain ⟨ending, rfl⟩ := exists_ending_of_skipTrivia hbehind hsemicolon
    exact ⟨hdepth, before, text, ending, rfl, hwrites⟩
  · contradiction

theorem Writes.readLiteral_append {text : List Char} {value : Value} {ending : Ending}
    (h : Writes text ending.text value) (hdepth : value.depth ≤ maxDepth) (before : Gaps) :
    readLiteral (before.text ++ (text ++ ending.text)) = .ok value := by
  obtain ⟨r, hending, hsemicolon⟩ := ending.skipTrivia_text
  unfold readLiteral
  simp only [bind, Except.bind, h.skipTrivia_append before, h.read_append maxDepth hdepth rfl, hending,
    hsemicolon]
  rfl

/--
What is accepted as a literal is exactly what the grammar has: a single value between gaps, with at most
one semicolon behind it, in which arrays lie at most 128 deep inside each other.
-/
theorem readLiteral_eq_ok_iff (s : List Char) (value : Value) :
    readLiteral s = .ok value ↔
      value.depth ≤ 128 ∧ ∃ (before : Gaps) (text : List Char) (ending : Ending),
        s = before.text ++ (text ++ ending.text) ∧ Writes text ending.text value := by
  constructor
  · exact exists_writes_of_readLiteral
  · rintro ⟨hdepth, before, text, ending, rfl, hwrites⟩
    exact hwrites.readLiteral_append hdepth before

example : [['[', ',', ']'], ['[', '1', ' ', '2', ']'], ['[', ']', '[', ']'], ['\x7b', '\x7d'],
      ['[', '1', ']', ';', ';']].map (readLiteral · |>.isOk) = List.replicate 5 false := by
  decide +kernel

/-- No text that writes the items of an array goes on as another one. -/
theorem WritesItems.append_inj {text other s t : List Char} {items others : List Value}
    (h : WritesItems text items) (hother : WritesItems other others) (heq : text ++ s = other ++ t) :
    s = t := by
  have hread := h.readItems_append _ (Nat.le_max_left _ (Value.depth.go others)) s []
  have hreadOther := hother.readItems_append _ (Nat.le_max_right (Value.depth.go items) _) t []
  rw [heq, hreadOther] at hread
  cases hread
  rfl

theorem Writes.exists_writesItems {text behind : List Char} {items : List Value}
    (h : Writes text behind (.array items)) : ∃ r, text = '[' :: r ∧ WritesItems r items := by
  generalize hvalue : Value.array items = value at h
  cases h with
  | word hname =>
    subst hvalue
    simp [words] at hname
  | number numeral =>
    unfold Numeral.value at hvalue
    dsimp only at hvalue
    split at hvalue <;> contradiction
  | string => contradiction
  | array hitems =>
    cases hvalue
    exact ⟨_, rfl, hitems⟩

theorem WritesItems.exists_append {text : List Char} {items : List Value} (h : WritesItems text items) :
    ∃ inner, text = inner ++ [']'] := by
  cases h with
  | close before => exact ⟨before.text, rfl⟩
  | @last text item before behind => exact ⟨before.text ++ (text ++ behind.text), by simp⟩
  | @more text rest item items before behind _ hrest =>
    obtain ⟨inner, rfl⟩ := hrest.exists_append
    exact ⟨before.text ++ (text ++ (behind.text ++ ',' :: inner)), by simp⟩

end SymbolSearch.Literal
