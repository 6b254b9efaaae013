import SymbolSearch.Proofs.Literal.Acceptance

/-!
This module contains the contexts in which the characters of a text stand: in a comment, in a string,
behind a backslash or outside of all of them. A context is told from the characters in front of it,
one by one, whatever they say. In everything that is read as a literal the numeric escapes, found by
their contexts, have the digits that they need.
-/

namespace SymbolSearch.Literal

inductive Context
  | code
  /-- Behind a slash that may start a comment. -/
  | slash
  | line
  | block
  /-- Behind an asterisk in a block comment. -/
  | star
  | quoted (quote : Char)
  | escaped (quote : Char)
  deriving DecidableEq

namespace Context

def enter (c : Char) : Context :=
  if c = '/' then slash
  else if c = '"' ∨ c = '\'' then quoted c
  else code

def next : Context → Char → Context
  | code, c => enter c
  | slash, c => if c = '/' then line else if c = '*' then block else enter c
  | line, c => if c = '\n' then code else line
  | block, c => if c = '*' then star else block
  | star, c => if c = '/' then code else if c = '*' then star else block
  | quoted quote, c => if c = quote then code else if c = '\\' then escaped quote else quoted quote
  | escaped quote, _ => quoted quote

/--
The context behind a text that starts in a context.
-/
def run (context : Context) (text : List Char) : Context :=
  text.foldl next context

def isEscaped : Context → Bool
  | escaped _ => true
  | _ => false

@[simp]
theorem run_nil (context : Context) : context.run [] = context :=
  rfl

@[simp]
theorem run_cons (context : Context) (c : Char) (s : List Char) :
    context.run (c :: s) = (context.next c).run s :=
  rfl

theorem run_append (context : Context) (s t : List Char) :
    context.run (s ++ t) = (context.run s).run t :=
  List.foldl_append

theorem enter_eq_code {p : Char → Bool} (hp : ['/', '"', '\''].all fun c => !p c) {c : Char}
    (hc : p c) : enter c = code := by
  have hne : ∀ d ∈ ['/', '"', '\''], c ≠ d := by
    rintro d hd rfl
    have := List.all_eq_true.mp hp c hd
    simp [hc] at this
  simp [enter, hne]

end Context

/--
The letters that start a numeric escape.
-/
def numericLetters : List Char :=
  ['x', 'u']

/--
Whether the digits of a numeric escape stand behind its letter and nothing else does in their place:
two digits behind `x`, and behind `u` four or, in braces, any that write a number of 32 bits.
-/
inductive Spelled : Char → List Char → Prop
  | twoDigits {n : Nat} {s : List Char} (hex : HexDigits n) (h : hex.digits.length = 2)
      (hfront : hex.digits <+: s) : Spelled 'x' s
  | fourDigits {n : Nat} {s : List Char} (hex : HexDigits n) (h : hex.digits.length = 4)
      (hfront : hex.digits <+: s) : Spelled 'u' s
  | braces {n : Nat} {s : List Char} (hex : HexDigits n) (hne : hex.digits ≠ [])
      (hn : n < UInt32.size) (hfront : '{' :: (hex.digits ++ ['}']) <+: s) : Spelled 'u' s

/--
Whether the digits of a numeric escape stand behind its letter, with a plus sign allowed in front of
those in braces.
-/
def HasDigits (letter : Char) (s : List Char) : Prop :=
  Spelled letter s ∨ letter = 'u' ∧ ∃ r, s = '{' :: '+' :: r ∧ Spelled 'u' ('{' :: r)

theorem Spelled.append {letter : Char} {s : List Char} (h : Spelled letter s) (t : List Char) :
    Spelled letter (s ++ t) := by
  cases h with
  | twoDigits hex h hfront => exact .twoDigits hex h (hfront.trans (List.prefix_append s t))
  | fourDigits hex h hfront => exact .fourDigits hex h (hfront.trans (List.prefix_append s t))
  | braces hex hne hn hfront => exact .braces hex hne hn (hfront.trans (List.prefix_append s t))

theorem HasDigits.append {letter : Char} {s : List Char} (h : HasDigits letter s) (t : List Char) :
    HasDigits letter (s ++ t) := by
  rcases h with h | ⟨rfl, r, rfl, h⟩
  · exact .inl (h.append t)
  · exact .inr ⟨rfl, r ++ t, rfl, h.append t⟩

theorem not_hasDigits_cons {c : Char} (hc : Text.isDigitIn 16 c = false) (hbrace : c ≠ '{')
    (letter : Char) (s : List Char) : ¬HasDigits letter (c :: s) := by
  have hdigits {n : Nat} (hex : HexDigits n) (hne : hex.digits ≠ []) : ¬hex.digits <+: c :: s := by
    intro hfront
    obtain ⟨d, digits, heq⟩ := List.exists_cons_of_ne_nil hne
    have hmem : c ∉ hex.digits := hex.not_mem hc
    rw [heq] at hfront hmem
    rw [(List.cons_prefix_cons.mp hfront).1] at hmem
    simp at hmem
  rintro (h | ⟨-, r, heq, -⟩)
  · cases h with
    | twoDigits hex h hfront => exact hdigits hex (List.ne_nil_of_length_eq_add_one h) hfront
    | fourDigits hex h hfront => exact hdigits hex (List.ne_nil_of_length_eq_add_one h) hfront
    | braces hex hne hn hfront => exact hbrace (List.cons_prefix_cons.mp hfront).1.symm
  · exact hbrace (List.cons.inj heq).1

theorem not_spelled_plus (s : List Char) : ¬Spelled 'u' ('{' :: '+' :: s) := by
  intro h
  cases h with
  | fourDigits hex hlength hfront =>
    obtain ⟨r, heq⟩ := hfront
    exact hex.append_ne_brace_cons (List.ne_nil_of_length_eq_add_one hlength) _ _ heq
  | braces hex hne hn hfront =>
    obtain ⟨d, digits, hdigits⟩ := List.exists_cons_of_ne_nil hne
    obtain ⟨r, heq⟩ := hfront
    have hplus : '+' ∉ hex.digits := hex.not_mem (by decide)
    rw [hdigits] at heq hplus
    cases heq
    simp at hplus

/--
Whether all numeric escapes in a text that starts in a context have their digits.
-/
def Regular : Context → List Char → Prop
  | _, [] => True
  | context, c :: s =>
    (context.isEscaped → c ∈ numericLetters → HasDigits c s) ∧ Regular (context.next c) s

theorem Regular.append {context : Context} {s t : List Char} (h : Regular context s)
    (ht : Regular (context.run s) t) : Regular context (s ++ t) := by
  induction s generalizing context with
  | nil => exact ht
  | cons c s ih =>
    refine ⟨?_, ih h.2 ht⟩
    intro hescaped hc
    exact (h.1 hescaped hc).append t

theorem Regular.hasDigits {context : Context} {front rest : List Char} {c : Char}
    (h : Regular context (front ++ c :: rest)) (hescaped : (context.run front).isEscaped)
    (hc : c ∈ numericLetters) : HasDigits c rest := by
  induction front generalizing context with
  | nil => exact h.1 hescaped hc
  | cons d front ih => exact ih h.2 hescaped

/--
A text that leads from one context into another one and in which all numeric escapes have their digits.
-/
structure Passes (start : Context) (text : List Char) (stop : Context) : Prop where
  run_eq : start.run text = stop
  regular : Regular start text

namespace Passes

variable {start stop context : Context} {s t : List Char} {c : Char}

theorem nil : Passes start [] start :=
  ⟨rfl, trivial⟩

theorem cons (hstart : start.isEscaped = false) (h : Passes (start.next c) s stop) :
    Passes start (c :: s) stop := by
  refine ⟨h.run_eq, ?_, h.regular⟩
  intro hescaped
  rw [hstart] at hescaped
  contradiction

theorem cons_numeric {quote : Char} (hc : HasDigits c s) (h : Passes (.quoted quote) s stop) :
    Passes (.escaped quote) (c :: s) stop :=
  ⟨h.run_eq, fun _ _ => hc, h.regular⟩

theorem cons_other {quote : Char} (hc : c ∉ numericLetters) (h : Passes (.quoted quote) s stop) :
    Passes (.escaped quote) (c :: s) stop :=
  ⟨h.run_eq, fun _ hmem => absurd hmem hc, h.regular⟩

theorem append (hs : Passes start s context) (ht : Passes context t stop) :
    Passes start (s ++ t) stop := by
  constructor
  · rw [Context.run_append, hs.run_eq, ht.run_eq]
  · apply hs.regular.append
    rw [hs.run_eq]
    exact ht.regular

theorem of_next_eq (hstart : start.isEscaped = false) (h : ∀ c ∈ s, start.next c = start) :
    Passes start s start := by
  induction s with
  | nil => exact nil
  | cons c s ih =>
    apply cons hstart
    rw [h c (List.mem_cons_self ..)]
    apply ih
    intro d hd
    exact h d (List.mem_cons_of_mem c hd)

theorem of_all {p : Char → Bool} (hp : ['/', '"', '\''].all fun c => !p c) (h : s.all p) :
    Passes .code s .code := by
  apply of_next_eq rfl
  intro c hc
  exact Context.enter_eq_code hp (List.all_eq_true.mp h c hc)

theorem comment (h : '\n' ∉ s) : Passes .code ('/' :: '/' :: s) .line := by
  apply cons rfl
  apply cons rfl
  apply of_next_eq rfl
  intro c hc
  apply if_neg
  rintro rfl
  exact h hc

/-- A block comment goes on, behind an asterisk or not, as long as it is not closed. -/
theorem inside (hstart : start = .block ∨ start = .star ∧ s.head? ≠ some '/')
    (h : ¬['*', '/'] <:+: s) :
    ∃ stop, (stop = .block ∨ stop = .star) ∧ Passes start s stop := by
  induction s generalizing start with
  | nil => exact ⟨start, hstart.imp_right And.left, nil⟩
  | cons c s ih =>
    rw [List.infix_cons_iff, not_or] at h
    have hnext : start.next c = if c = '*' then .star else .block := by
      rcases hstart with rfl | ⟨rfl, hhead⟩
      · rfl
      · apply if_neg
        simpa using hhead
    have hstar : start.next c = .block ∨ start.next c = .star ∧ s.head? ≠ some '/' := by
      rw [hnext]
      split
      · next hc =>
        subst hc
        refine .inr ⟨rfl, ?_⟩
        intro hhead
        obtain ⟨r, rfl⟩ := List.head?_eq_some_iff.mp hhead
        exact h.1 ⟨r, rfl⟩
      · exact .inl rfl
    obtain ⟨stop, hstop, hpasses⟩ := ih hstar h.2
    refine ⟨stop, hstop, cons ?_ hpasses⟩
    rcases hstart with rfl | ⟨rfl, -⟩ <;> rfl

end Passes

theorem Gap.passes (gap : Gap) : Passes .code gap.text .code := by
  cases gap with
  | blank c h =>
    apply Passes.of_all (p := Text.isBlank) (by decide)
    simpa [text] using h
  | line text h => exact (Passes.comment h).append (.cons rfl .nil)
  | block text h =>
    obtain ⟨stop, hstop, hpasses⟩ := Passes.inside (.inl rfl) h
    have hclose : Passes stop ['*', '/'] .code := by
      rcases hstop with rfl | rfl <;> exact .cons rfl (.cons rfl .nil)
    exact .cons rfl (.cons rfl (hpasses.append hclose))

theorem Gaps.passes (gaps : Gaps) : Passes .code gaps.text .code := by
  induction gaps with
  | nil => exact .nil
  | cons gap gaps ih => exact gap.passes.append ih

theorem Tail.regular (tail : Tail) : Regular .code tail.text := by
  have hgaps := tail.gaps.passes
  unfold text
  cases hcomment : tail.comment? with
  | none => exact (hgaps.append .nil).regular
  | some comment => exact (hgaps.append (.comment (tail.hcomment comment hcomment))).regular

theorem Ending.regular (ending : Ending) : Regular .code ending.text := by
  unfold text
  cases ending.semicolon? with
  | none => exact ending.tail.regular
  | some gaps =>
    have hsemicolon : Passes .code (gaps.text ++ [';']) .code := gaps.passes.append (.cons rfl .nil)
    apply hsemicolon.regular.append
    rw [hsemicolon.run_eq]
    exact ending.tail.regular

section Strings

variable {quote : Quote}

theorem Context.enter_quote : enter quote.char = quoted quote.char := by
  cases quote <;> rfl

theorem Context.next_quoted {c : Char} (hquote : c ≠ quote.char) (hbackslash : c ≠ '\\') :
    (quoted quote.char).next c = quoted quote.char := by
  simp [next, hquote, hbackslash]

theorem Context.next_backslash : (quoted quote.char).next '\\' = escaped quote.char := by
  simp [next, quote.char_ne_backslash.symm]

theorem HasDigits.of_braces {n : Nat} (plus : Bool) (hex : HexDigits n) (hne : hex.digits ≠ [])
    (hn : n < UInt32.size) :
    HasDigits 'u' ('{' :: ((if plus then ['+'] else []) ++ (hex.digits ++ ['}']))) := by
  have hspelled : Spelled 'u' ('{' :: (hex.digits ++ ['}'])) :=
    .braces hex hne hn (List.prefix_refl _)
  cases plus with
  | true => exact .inr ⟨rfl, _, rfl, hspelled⟩
  | false => exact .inl hspelled

theorem Passes.of_forall_ne {s : List Char} (h : ∀ c ∈ s, c ≠ quote.char ∧ c ≠ '\\') :
    Passes (.quoted quote.char) s (.quoted quote.char) := by
  apply of_next_eq rfl
  intro c hc
  exact Context.next_quoted (h c hc).1 (h c hc).2

theorem HexDigits.passes {n : Nat} (hex : HexDigits n) :
    Passes (.quoted quote.char) hex.digits (.quoted quote.char) := by
  apply Passes.of_forall_ne
  intro c hc
  constructor
  · rintro rfl
    apply hex.not_mem _ hc
    cases quote <;> decide
  · rintro rfl
    apply hex.not_mem (by decide) hc

theorem Escape.passes {behind escaped : List Char} {c? : Option Char}
    (h : Escape behind escaped c?) : Passes (.escaped quote.char) escaped (.quoted quote.char) := by
  cases h with
  | letter h =>
    have hnot : letterEscapes.all fun letter => !numericLetters.contains letter.1 := by decide
    refine .cons_other ?_ .nil
    simpa using List.all_eq_true.mp hnot _ h
  | @itself c h =>
    have hreserved : numericLetters.all reserved.contains := by decide
    refine .cons_other ?_ .nil
    intro hc
    exact h (List.contains_iff_mem.mp (List.all_eq_true.mp hreserved c hc))
  | continuation lineBreak _ =>
    have hfeed : Passes (.quoted quote.char) ['\n'] (.quoted quote.char) := by
      apply Passes.of_forall_ne
      simpa using quote.char_ne_newline.symm
    cases lineBreak with
    | lineFeed => exact .cons_other (by decide) .nil
    | carriageReturn => exact .cons_other (by decide) .nil
    | both => exact .cons_other (by decide) hfeed
  | twoDigits hex h =>
    exact .cons_numeric (.inl (.twoDigits hex h (List.prefix_refl _))) hex.passes
  | fourDigits hex h _ =>
    exact .cons_numeric (.inl (.fourDigits hex h (List.prefix_refl _))) hex.passes
  | pair _ _ first hfirst second hsecond =>
    -- The second half is an escape with four digits itself.
    have hlow : Passes (.quoted quote.char) ('\\' :: 'u' :: second.digits) (.quoted quote.char) := by
      apply Passes.cons rfl
      rw [Context.next_backslash]
      exact .cons_numeric (.inl (.fourDigits second hsecond (List.prefix_refl _))) second.passes
    exact .cons_numeric (.inl (.fourDigits first hfirst (List.prefix_append ..)))
      (first.passes.append hlow)
  | braces plus hex hne hn =>
    have hopen : Passes (.quoted quote.char) ('{' :: if plus then ['+'] else [])
        (.quoted quote.char) := by
      apply Passes.of_forall_ne
      cases plus <;> cases quote <;> simp [Quote.char]
    have hclose : Passes (.quoted quote.char) ['}'] (.quoted quote.char) := by
      apply Passes.of_forall_ne
      cases quote <;> simp [Quote.char]
    exact .cons_numeric (.of_braces plus hex hne hn) (hopen.append (hex.passes.append hclose))

theorem Body.passes {text chars : List Char} (h : Body quote text chars) :
    Passes (.quoted quote.char) text .code := by
  induction h with
  | close => exact .cons rfl ⟨by simp [Context.next], trivial⟩
  | raw hquote hbackslash _ _ ih =>
    apply Passes.cons rfl
    rw [Context.next_quoted hquote hbackslash]
    exact ih
  | escape hescape _ ih =>
    apply Passes.cons rfl
    rw [Context.next_backslash]
    exact hescape.passes.append ih

end Strings

theorem all_isNameChar_of_mem_words {name : List Char} {value : Value} (h : (name, value) ∈ words) :
    name.all isNameChar := by
  have hall : words.all fun word => word.1.all isNameChar := by decide
  exact List.all_eq_true.mp hall _ h

mutual

theorem Writes.passes {text behind : List Char} {value : Value} (h : Writes text behind value) :
    Passes .code text .code := by
  cases h with
  | word hname _ => exact .of_all (by decide) (all_isNameChar_of_mem_words hname)
  | number numeral _ _ => exact .of_all (by decide) numeral.all_isNumberChar
  | string quote hbody =>
    apply Passes.cons rfl
    rw [Context.next, Context.enter_quote]
    exact hbody.passes
  | array hitems => exact .cons rfl hitems.passes

theorem WritesItems.passes {text : List Char} {items : List Value} (h : WritesItems text items) :
    Passes .code text .code := by
  have hbracket : Passes .code [']'] .code := .cons rfl .nil
  cases h with
  | close before => exact before.passes.append hbracket
  | last before behind h => exact before.passes.append (h.passes.append (behind.passes.append hbracket))
  | more before behind h hrest =>
    have hcomma : Passes .code (',' :: _) .code := .cons rfl hrest.passes
    exact before.passes.append (h.passes.append (behind.passes.append hcomma))

end

theorem regular_of_readLiteral {s : List Char} {value : Value} (h : readLiteral s = .ok value) :
    Regular .code s := by
  obtain ⟨-, before, text, ending, rfl, hwrites⟩ := exists_writes_of_readLiteral h
  have hvalue := before.passes.append hwrites.passes
  rw [← List.append_assoc]
  apply hvalue.regular.append
  rw [hvalue.run_eq]
  exact ending.regular

end SymbolSearch.Literal
