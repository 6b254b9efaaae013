import SymbolSearch.Proofs.Literal.Token

/-!
This module contains the proof that the reader of literals reads back every rendering of a value, or
stops at the bracket that opens an array inside too many others.
-/

namespace SymbolSearch.Literal

open Text (Stops)

section Items

variable {item : Reader Value} {s start r next : List Char} {value : Value} {items : List Value}

theorem readItems_close (hbefore : skipTrivia s = .ok (']' :: r)) :
    readItems item s items = .ok (items.reverse, r) := by
  rw [readItems]
  split <;> simp_all

theorem readItems_of_head_ne (hbefore : skipTrivia s = .ok start) (hstart : start.head? ≠ some ']') :
    readItems item s items =
      match item.read start with
      | .error fault => .error fault
      | .ok (value, r) =>
        match skipTrivia r with
        | .error fault => .error fault
        | .ok [] => .error ⟨.openArray, []⟩
        | .ok (',' :: next) => readItems item next (value :: items)
        | .ok (']' :: next) => .ok ((value :: items).reverse, next)
        | .ok (c :: next) => .error ⟨.separator c, c :: next⟩ := by
  conv => lhs; rw [readItems]
  split
  · next heq =>
    rw [hbefore] at heq
    cases heq
  · next heq =>
    rw [hbefore] at heq
    cases heq
    exact absurd rfl hstart
  · next heq =>
    rw [hbefore] at heq
    cases heq
    split
    · next hread => rw [hread]
    · next hread =>
      rw [hread]
      dsimp only
      split <;> simp_all

theorem readItems_of_error {fault : Fault} (hbefore : skipTrivia s = .ok start)
    (hstart : start.head? ≠ some ']') (hread : item.read start = .error fault) :
    readItems item s items = .error fault := by
  rw [readItems_of_head_ne hbefore hstart, hread]

theorem readItems_last (hbefore : skipTrivia s = .ok start) (hstart : start.head? ≠ some ']')
    (hread : item.read start = .ok (value, r)) (hbehind : skipTrivia r = .ok (']' :: next)) :
    readItems item s items = .ok ((value :: items).reverse, next) := by
  rw [readItems_of_head_ne hbefore hstart, hread]
  simp only [hbehind]

theorem readItems_more (hbefore : skipTrivia s = .ok start) (hstart : start.head? ≠ some ']')
    (hread : item.read start = .ok (value, r)) (hbehind : skipTrivia r = .ok (',' :: next)) :
    readItems item s items = readItems item next (value :: items) := by
  rw [readItems_of_head_ne hbefore hstart, hread]
  simp only [hbehind]

end Items

theorem Rendering.text_eq_cons (rendering : Rendering) :
    ∃ c r, rendering.text = c :: r ∧ startsGap c = false ∧ c ≠ ']' := by
  cases rendering with
  | null => exact ⟨'n', _, rfl, by decide, by decide⟩
  | undefined => exact ⟨'u', _, rfl, by decide, by decide⟩
  | boolean value =>
    cases value with
    | true => exact ⟨'t', _, rfl, by decide, by decide⟩
    | false => exact ⟨'f', _, rfl, by decide, by decide⟩
  | integer negative digits hne hall _ =>
    cases negative with
    | true => exact ⟨'-', _, rfl, by decide, by decide⟩
    | false =>
      obtain ⟨c, r, rfl⟩ := List.exists_cons_of_ne_nil hne
      have hc : c.isDigit := List.all_eq_true.mp hall c (List.mem_cons_self ..)
      refine ⟨c, r, rfl, startsGap_of_isDigit hc, ?_⟩
      intro heq
      rw [heq] at hc
      exact absurd hc (by decide)
  | string quote pieces =>
    refine ⟨quote.char, _, rfl, ?_⟩
    cases quote <;> decide
  | array items => exact ⟨'[', _, rfl, by decide, by decide⟩

theorem Rendering.stops_text_append (rendering : Rendering) (s : List Char) :
    Stops startsGap (rendering.text ++ s) := by
  obtain ⟨c, r, htext, hgap, _⟩ := rendering.text_eq_cons
  rw [htext]
  exact .cons hgap

theorem Rendering.skipTrivia_append (rendering : Rendering) (gaps : Gaps) (s : List Char) :
    skipTrivia (gaps.text ++ (rendering.text ++ s)) = .ok (rendering.text ++ s) := by
  apply gaps.skipTrivia_text_append_of_stops
  apply rendering.stops_text_append

theorem Rendering.head?_text_append (rendering : Rendering) (s : List Char) :
    (rendering.text ++ s).head? ≠ some ']' := by
  obtain ⟨c, r, htext, _, hc⟩ := rendering.text_eq_cons
  rw [htext]
  simpa using hc

mutual

theorem Rendering.opening?_eq_none_iff (rendering : Rendering) (level : Nat) :
    rendering.opening? level = none ↔ rendering.value.depth ≤ level := by
  cases rendering with
  | array items =>
    cases level with
    | zero => simp [Rendering.opening?, Rendering.value, Value.depth]
    | succ level =>
      have := items.opening?_eq_none_iff level
      simpa [Rendering.opening?, Rendering.value, Value.depth] using this
  | _ => simp [Rendering.opening?, Rendering.value, Value.depth]

theorem Items.opening?_eq_none_iff (items : Items) (level : Nat) :
    items.opening? level = none ↔ Value.depth.go items.values ≤ level := by
  cases items with
  | close before => simp [Items.opening?, Items.values, Value.depth.go]
  | last before item behind =>
    have := item.opening?_eq_none_iff level
    simpa [Items.opening?, Items.values, Value.depth.go] using this
  | more before item behind rest =>
    have hitem := item.opening?_eq_none_iff level
    have hrest := rest.opening?_eq_none_iff level
    simp only [Items.opening?, Items.values, Value.depth.go, Nat.max_le, ← hitem, ← hrest]
    cases item.opening? level <;> simp

end

mutual

theorem Rendering.exists_text_eq {rendering : Rendering} {level : Nat} {before : List Char}
    (h : rendering.opening? level = some before) :
    ∃ behind, rendering.text = before ++ '[' :: behind := by
  cases rendering with
  | array items =>
    cases level with
    | zero =>
      cases h
      exact ⟨_, rfl⟩
    | succ level =>
      simp only [Rendering.opening?, Option.map_eq_some_iff] at h
      obtain ⟨front, hfront, rfl⟩ := h
      obtain ⟨behind, htext⟩ := Items.exists_text_eq hfront
      exact ⟨behind, by simp [Rendering.text, htext]⟩
  | _ => contradiction

theorem Items.exists_text_eq {items : Items} {level : Nat} {before : List Char}
    (h : items.opening? level = some before) :
    ∃ behind, items.text = before ++ '[' :: behind := by
  cases items with
  | close gaps => contradiction
  | last gaps item behind =>
    simp only [Items.opening?, Option.map_eq_some_iff] at h
    obtain ⟨front, hfront, rfl⟩ := h
    obtain ⟨r, htext⟩ := Rendering.exists_text_eq hfront
    exact ⟨_, by simp [Items.text, htext]; rfl⟩
  | more gaps item behind rest =>
    simp only [Items.opening?] at h
    split at h
    · next front hfront =>
      cases h
      obtain ⟨r, htext⟩ := Rendering.exists_text_eq hfront
      exact ⟨_, by simp [Items.text, htext]; rfl⟩
    · rw [Option.map_eq_some_iff] at h
      obtain ⟨front, hfront, rfl⟩ := h
      obtain ⟨r, htext⟩ := Items.exists_text_eq hfront
      exact ⟨r, by simp [Items.text, htext]⟩

end

/--
What it comes to when something is read at the start of a text: its value, or a fault where the text
in front of it ends.
-/
def outcome (before? : Option (List Char)) (text : List Char) (a : α) (s : List Char) : Step α :=
  match before? with
  | none => .ok (a, s)
  | some before => .error ⟨.nesting, (text ++ s).drop before.length⟩

theorem valueReader_read (depth : Nat) : ∃ item?, (valueReader depth).read = readValue item? := by
  cases depth with
  | zero => exact ⟨none, rfl⟩
  | succ depth => exact ⟨some (valueReader depth), rfl⟩

theorem Rendering.read_text_append_of_depth_eq_zero (rendering : Rendering) (depth : Nat)
    (h : rendering.value.depth = 0) {s : List Char} (hs : Stops continuesToken s) :
    (valueReader depth).read (rendering.text ++ s) =
      outcome (rendering.opening? depth) rendering.text rendering.value s := by
  have hnone : rendering.opening? depth = none := by
    rw [rendering.opening?_eq_none_iff]
    omega
  obtain ⟨item?, hread⟩ := valueReader_read depth
  rw [hnone, hread]
  apply rendering.readValue_text_append item? h hs

mutual

theorem Rendering.read_text_append (rendering : Rendering) (depth : Nat) {s : List Char}
    (hs : Stops continuesToken s) :
    (valueReader depth).read (rendering.text ++ s) =
      outcome (rendering.opening? depth) rendering.text rendering.value s := by
  cases rendering with
  | array items =>
    cases depth with
    | zero => rfl
    | succ depth =>
      have hitems := items.readItems_text_append depth s []
      change mapRead Value.array (readItems (valueReader depth) (items.text ++ s) []) = _
      rw [hitems]
      simp only [Rendering.opening?]
      cases items.opening? depth <;> rfl
  | _ => apply Rendering.read_text_append_of_depth_eq_zero _ depth rfl hs

theorem Items.readItems_text_append (items : Items) (depth : Nat) (s : List Char)
    (read : List Value) :
    readItems (valueReader depth) (items.text ++ s) read =
      outcome (items.opening? depth) items.text (read.reverse ++ items.values) s := by
  cases items with
  | close gaps =>
    have hclose : Stops startsGap (']' :: s) := .cons (by decide)
    have hbefore := gaps.skipTrivia_text_append_of_stops hclose
    simp only [Items.text, List.append_assoc, List.singleton_append]
    rw [readItems_close hbefore]
    simp [outcome, Items.opening?, Items.values]
  | last gaps item behind =>
    have hclose : Stops startsGap (']' :: s) := .cons (by decide)
    have hstops : Stops continuesToken (behind.text ++ ']' :: s) :=
      behind.stops_continuesToken (.cons (by decide))
    have hbefore := item.skipTrivia_append gaps (behind.text ++ ']' :: s)
    have hhead := item.head?_text_append (behind.text ++ ']' :: s)
    have hitem := item.read_text_append depth hstops
    have hbehind := behind.skipTrivia_text_append_of_stops hclose
    simp only [Items.text, List.append_assoc, List.singleton_append, Items.opening?]
    cases hopening : item.opening? depth with
    | none =>
      rw [hopening] at hitem
      rw [readItems_last hbefore hhead hitem hbehind]
      simp [outcome, Items.values]
    | some front =>
      -- Reading stops inside the item, so what stands in front of the item is in front of the fault.
      rw [hopening] at hitem
      rw [readItems_of_error hbefore hhead hitem]
      simp [outcome, List.drop_length_add_append]
  | more gaps item behind rest =>
    have hcomma : Stops startsGap (',' :: (rest.text ++ s)) := .cons (by decide)
    have hstops : Stops continuesToken (behind.text ++ ',' :: (rest.text ++ s)) :=
      behind.stops_continuesToken (.cons (by decide))
    have hbefore := item.skipTrivia_append gaps (behind.text ++ ',' :: (rest.text ++ s))
    have hhead := item.head?_text_append (behind.text ++ ',' :: (rest.text ++ s))
    have hitem := item.read_text_append depth hstops
    have hbehind := behind.skipTrivia_text_append_of_stops hcomma
    have hrest := rest.readItems_text_append depth s (item.value :: read)
    simp only [Items.text, List.append_assoc, List.cons_append, Items.opening?]
    cases hopening : item.opening? depth with
    | none =>
      rw [hopening] at hitem
      rw [readItems_more hbefore hhead hitem hbehind, hrest]
      cases rest.opening? depth with
      | none => simp [outcome, Items.values]
      | some front => simp [outcome, List.drop_length_add_append]
    | some front =>
      rw [hopening] at hitem
      rw [readItems_of_error hbefore hhead hitem]
      simp [outcome, List.drop_length_add_append]

end

namespace Document

variable (document : Document)

theorem stops_ending : Stops continuesToken document.ending := by
  apply document.behind.stops_continuesToken
  cases document.semicolon? with
  | none => exact .nil
  | some gaps => exact .cons (by decide)

theorem skipTrivia_ending :
    ∃ r, skipTrivia document.ending = .ok r ∧ skipSemicolon r = .ok [] := by
  unfold ending
  cases document.semicolon? with
  | none => exact ⟨[], document.behind.skipTrivia_text_append_of_stops .nil, rfl⟩
  | some gaps =>
    have hsemicolon : Stops startsGap (';' :: gaps.text) := .cons (by decide)
    have hgaps := gaps.skipTrivia_text_append_of_stops .nil
    rw [List.append_nil] at hgaps
    exact ⟨_, document.behind.skipTrivia_text_append_of_stops hsemicolon, hgaps⟩

theorem skipTrivia_text :
    skipTrivia document.text = .ok (document.root.text ++ document.ending) :=
  document.root.skipTrivia_append document.before document.ending

theorem opening?_eq_none_iff (level : Nat) :
    document.opening? level = none ↔ document.value.depth ≤ level := by
  rw [opening?, Option.map_eq_none_iff]
  apply document.root.opening?_eq_none_iff level

theorem readLiteral_eq_ok (h : document.value.depth ≤ maxDepth) :
    readLiteral document.text = .ok document.value := by
  obtain ⟨r, hending, hsemicolon⟩ := document.skipTrivia_ending
  have hread := document.root.read_text_append maxDepth document.stops_ending
  rw [(document.root.opening?_eq_none_iff maxDepth).mpr h] at hread
  unfold readLiteral
  rw [document.skipTrivia_text]
  simp only [bind, Except.bind, hread, outcome, hending, hsemicolon]
  rfl

theorem readLiteral_eq_error {before : List Char} (h : document.opening? maxDepth = some before) :
    ∃ behind, document.text = before ++ '[' :: behind ∧
      readLiteral document.text = .error ⟨.nesting, '[' :: behind⟩ := by
  unfold opening? at h
  rw [Option.map_eq_some_iff] at h
  obtain ⟨front, hfront, rfl⟩ := h
  obtain ⟨behind, htext⟩ := Rendering.exists_text_eq hfront
  have hread := document.root.read_text_append maxDepth document.stops_ending
  rw [hfront] at hread
  refine ⟨behind ++ document.ending, ?_, ?_⟩
  · simp [text, htext]
  · unfold readLiteral
    rw [document.skipTrivia_text]
    simp only [bind, Except.bind, hread, outcome]
    simp [htext]

/--
A text that writes a value is read as that value if arrays lie at most 128 deep inside each other.
Otherwise reading stops at the first bracket that opens one more.
-/
theorem readLiteral_text :
    (document.value.depth ≤ 128 → readLiteral document.text = .ok document.value) ∧
    (128 < document.value.depth →
      ∃ before behind fault,
        document.opening? 128 = some before ∧ document.text = before ++ '[' :: behind ∧
        readLiteral document.text = .error fault ∧ fault.cause.message = "nesting too deep" ∧
        fault.offset document.text = Text.byteLength before) := by
  refine ⟨document.readLiteral_eq_ok, ?_⟩
  intro hdeep
  cases hopening : document.opening? 128 with
  | none =>
    rw [document.opening?_eq_none_iff] at hopening
    omega
  | some before =>
    obtain ⟨behind, htext, hread⟩ := document.readLiteral_eq_error hopening
    refine ⟨before, behind, _, rfl, htext, hread, rfl, ?_⟩
    rw [Fault.offset, htext, Text.byteLength_append, Nat.add_sub_cancel]

end Document

/--
Arrays inside each other, `n` of them around an empty one.
-/
def Rendering.nested : Nat → Rendering
  | 0 => .array (.close [])
  | n + 1 => .array (.last [] (nested n) [])

set_option maxRecDepth 4000 in
theorem readLiteral_spelled_and_nested :
    readLiteral
        ['[', '\'', '\\', 'x', '4', '1', '\\', '\n', 'b', '\'', ',', '-', '0', '7', ' ', ',', ']', ';'] =
      .ok (.array [.string "Ab", .integer (-7)]) ∧
    ∃ fault,
      readLiteral (List.replicate 129 '[' ++ List.replicate 129 ']') = .error fault ∧
      fault.cause.message = "nesting too deep" ∧
      fault.offset (List.replicate 129 '[' ++ List.replicate 129 ']') = 128 := by
  refine ⟨?_, ?_⟩
  · apply (Document.readLiteral_text
      {
        before := []
        root := .array
          (.more [] (.string .single
            [
              .char 'A' (.twoDigits ⟨['4', '1'], by decide, by decide⟩ rfl),
              .continuation .lineFeed,
              .char 'b' (.raw (by decide) (by decide) (by decide))
            ]) []
          (.more [] (.integer true ['0', '7'] (by decide) (by decide) (by decide))
            [.blank ' ' (by decide)]
          (.close [])))
        behind := []
        semicolon? := some []
      }).1
    decide
  · obtain ⟨before, behind, fault, hopening, -, hread, hmessage, hoffset⟩ :=
      (Document.readLiteral_text ⟨[], .nested 128, [], none⟩).2 (by decide)
    cases hopening
    exact ⟨fault, hread, hmessage, hoffset⟩

end SymbolSearch.Literal
