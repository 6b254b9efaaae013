import SymbolSearch.Proofs.Text.Span
import SymbolSearch.Text.Reference

/-!
This module contains the ways to write a text in HTML and the proof that decoding undoes each of
them.
-/

namespace SymbolSearch.Text

/--
The names that are known and the characters that they stand for.
-/
inductive Reference.IsKnown : String → Char → Prop
  | ampersand : IsKnown "amp" '&'
  | less : IsKnown "lt" '<'
  | greater : IsKnown "gt" '>'
  | quote : IsKnown "quot" '"'
  | apostrophe : IsKnown "apos" '\''
  | noBreakSpace : IsKnown "nbsp" '\u00a0'
  | enDash : IsKnown "ndash" '\u2013'
  | emDash : IsKnown "mdash" '\u2014'
  | ellipsis : IsKnown "hellip" '\u2026'

/--
A way to write a character in HTML. Every character can be written as a reference, and only the
ampersand has to be.
-/
inductive Markup (c : Char)
  | plain (h : c ≠ '&')
  | hexadecimal (marker : Char) (hmarker : marker = 'x' ∨ marker = 'X')
      (digits : List Char) (hne : digits ≠ []) (hall : digits.all (isDigitIn 16))
      (hlength : digits.length ≤ 6) (hvalue : numeral 16 digits = c.toNat)
  | decimal (digits : List Char) (hne : digits ≠ []) (hall : digits.all (isDigitIn 10))
      (hlength : digits.length ≤ 7) (hvalue : numeral 10 digits = c.toNat)
  | named (name : String) (h : Reference.IsKnown name c)

def Markup.text {c : Char} : Markup c → List Char
  | plain _ => [c]
  | hexadecimal marker _ digits _ _ _ _ => '&' :: '#' :: marker :: (digits ++ [';'])
  | decimal digits _ _ _ _ => '&' :: '#' :: (digits ++ [';'])
  | named name _ => '&' :: (name.toList ++ [';'])

/--
A text together with a way to write it in HTML.
-/
abbrev Marked := List ((c : Char) × Markup c)

namespace Marked

def text (marked : Marked) : String :=
  .ofList (marked.map (·.1))

def written (marked : Marked) : String :=
  .ofList (marked.flatMap (·.2.text))

end Marked

namespace Reference

theorem closed?_append {p : Char → Bool} {body : List Char} (hne : body ≠ [])
    (hall : body.all p) (hp : p ';' = false) (s : List Char) :
    closed? p (body ++ ';' :: s) = some (body, s) := by
  have hbody : ∀ c ∈ body, p c := List.all_eq_true.mp hall
  have hstops : Stops p (';' :: s) := .cons hp
  unfold closed?
  rw [takeWhile_append_of_stops hbody hstops, dropWhile_append_of_stops hbody hstops]
  cases body with
  | nil => contradiction
  | cons c body => rfl

theorem digits?_append {base limit : Nat} {digits : List Char} (hne : digits ≠ [])
    (hall : digits.all (isDigitIn base)) (hlength : digits.length ≤ limit) (s : List Char) :
    digits? base limit (digits ++ ';' :: s) = some (digits, s) := by
  unfold digits?
  rw [closed?_append hne hall rfl, Option.filter_some]
  simp [hlength]

theorem read?_hexadecimal {marker : Char} (hmarker : marker = 'x' ∨ marker = 'X')
    {digits : List Char} (hne : digits ≠ []) (hall : digits.all (isDigitIn 16))
    (hlength : digits.length ≤ 6) (s : List Char) :
    read? ('#' :: marker :: (digits ++ ';' :: s)) = some (.hexadecimal digits, s) := by
  have hdigits := digits?_append hne hall hlength s
  rcases hmarker with rfl | rfl <;> simp [read?, hdigits]

theorem read?_decimal {digits : List Char} (hne : digits ≠ []) (hall : digits.all (isDigitIn 10))
    (hlength : digits.length ≤ 7) (s : List Char) :
    read? ('#' :: (digits ++ ';' :: s)) = some (.decimal digits, s) := by
  have hdigits := digits?_append hne hall hlength s
  obtain ⟨c, r, rfl⟩ := List.exists_cons_of_ne_nil hne
  have hc : isDigitIn 10 c := List.all_eq_true.mp hall c (List.mem_cons_self ..)
  unfold read?
  split
  · next heq =>
    cases heq
    contradiction
  · next heq =>
    cases heq
    contradiction
  · next heq =>
    cases heq
    rw [hdigits]
    rfl
  · simp_all

theorem read?_named {name : List Char} (hne : name ≠ []) (hall : name.all Char.isAlpha)
    (s : List Char) : read? (name ++ ';' :: s) = some (.named name, s) := by
  have hclosed := closed?_append hne hall rfl s
  obtain ⟨d, r, rfl⟩ := List.exists_cons_of_ne_nil hne
  have hd : d ≠ '#' := by
    rintro rfl
    simp at hall
  unfold read?
  split
  · next heq => exact absurd (List.cons.inj heq).1 hd
  · next heq => exact absurd (List.cons.inj heq).1 hd
  · next heq => exact absurd (List.cons.inj heq).1 hd
  · rw [hclosed]
    rfl

/--
Whether a text is this reference, from its ampersand to its semicolon.
-/
inductive Complete : Reference → List Char → Prop
  | hexadecimal {marker : Char} {digits : List Char} (hmarker : marker = 'x' ∨ marker = 'X')
      (hne : digits ≠ []) (hall : digits.all (isDigitIn 16)) (hlength : digits.length ≤ 6) :
      Complete (.hexadecimal digits) ('&' :: '#' :: marker :: (digits ++ [';']))
  | decimal {digits : List Char} (hne : digits ≠ []) (hall : digits.all (isDigitIn 10))
      (hlength : digits.length ≤ 7) : Complete (.decimal digits) ('&' :: '#' :: (digits ++ [';']))
  | named {name : List Char} (hne : name ≠ []) (hall : name.all Char.isAlpha) :
      Complete (.named name) ('&' :: (name ++ [';']))

/--
Whether a reference stands for a character: by its number, or by one of the known names.
-/
def StandsFor : Reference → Char → Prop
  | hexadecimal digits, c => numeral 16 digits = c.toNat
  | decimal digits, c => numeral 10 digits = c.toNat
  | named name, c => IsKnown (.ofList name) c

theorem scalar?_eq_some_iff {n : Nat} {c : Char} : scalar? n = some c ↔ n = c.toNat := by
  constructor
  · intro h
    unfold scalar? at h
    split at h
    · next hvalid =>
      cases h
      rw [Char.ofNat, dif_pos hvalid]
      rfl
    · contradiction
  · rintro rfl
    apply scalar?_toNat

theorem isKnown_of_mem_names : ∀ entry ∈ names, IsKnown entry.1 entry.2 := by
  simp only [names, List.forall_mem_cons]
  exact ⟨.ampersand, .less, .greater, .quote, .apostrophe, .noBreakSpace, .enDash, .emDash,
    .ellipsis, List.forall_mem_nil _⟩

theorem lookup_names_eq_some_iff {name : String} {c : Char} :
    names.lookup name = some c ↔ IsKnown name c := by
  constructor
  · intro h
    obtain ⟨front, back, heq, -⟩ := List.lookup_eq_some_iff.mp h
    apply isKnown_of_mem_names (name, c)
    rw [heq]
    simp
  · intro h
    cases h <;> decide

theorem IsKnown.isAlpha {name : String} {c : Char} (h : IsKnown name c) :
    name.toList ≠ [] ∧ name.toList.all Char.isAlpha := by
  cases h <;> decide

theorem char?_eq_some_iff {ref : Reference} {c : Char} : ref.char? = some c ↔ ref.StandsFor c := by
  cases ref with
  | hexadecimal digits => apply scalar?_eq_some_iff
  | decimal digits => apply scalar?_eq_some_iff
  | named name => apply lookup_names_eq_some_iff

namespace Complete

variable {ref : Reference} {text : List Char} (h : ref.Complete text)

include h

theorem exists_body : ∃ body, text = '&' :: body ∧ '&' ∉ body ∧
    ∀ s, read? (body ++ s) = some (ref, s) := by
  have hnot {p : Char → Bool} {row : List Char} (hall : row.all p) (hp : p '&' = false) :
      '&' ∉ row := by
    intro hmem
    rw [List.all_eq_true.mp hall _ hmem] at hp
    contradiction
  cases h with
  | hexadecimal hmarker hne hall hlength =>
    refine ⟨_, rfl, ?_, ?_⟩
    · have hdigits := hnot hall (by decide)
      rcases hmarker with rfl | rfl <;> simp [hdigits]
    · intro s
      simpa using read?_hexadecimal hmarker hne hall hlength s
  | decimal hne hall hlength =>
    refine ⟨_, rfl, ?_, ?_⟩
    · simp [hnot hall (by decide)]
    · intro s
      simpa using read?_decimal hne hall hlength s
  | named hne hall =>
    refine ⟨_, rfl, ?_, ?_⟩
    · simp [hnot hall (by decide)]
    · intro s
      simpa using read?_named hne hall s

end Complete

theorem closed?_eq_some {p : Char → Bool} {s body rest : List Char}
    (h : closed? p s = some (body, rest)) :
    body ≠ [] ∧ body.all p ∧ s = body ++ ';' :: rest := by
  unfold closed? at h
  split at h
  · next htake hdrop =>
    cases h
    refine ⟨List.cons_ne_nil _ _, ?_, ?_⟩
    · rw [← htake]
      apply List.all_takeWhile
    · rw [← htake, ← hdrop, List.takeWhile_append_dropWhile]
  · contradiction

theorem digits?_eq_some {base limit : Nat} {s digits rest : List Char}
    (h : digits? base limit s = some (digits, rest)) :
    digits ≠ [] ∧ digits.all (isDigitIn base) ∧ digits.length ≤ limit ∧ s = digits ++ ';' :: rest := by
  obtain ⟨hclosed, hlength⟩ := Option.filter_eq_some_iff.mp h
  obtain ⟨hne, hall, hs⟩ := closed?_eq_some hclosed
  exact ⟨hne, hall, of_decide_eq_true hlength, hs⟩

theorem exists_complete_of_read? {ref : Reference} {s rest : List Char}
    (h : read? s = some (ref, rest)) : ∃ text, ref.Complete text ∧ '&' :: s = text ++ rest := by
  unfold read? at h
  split at h
  · obtain ⟨⟨_, _⟩, hdigits, heq⟩ := Option.map_eq_some_iff.mp h
    cases heq
    obtain ⟨hne, hall, hlength, rfl⟩ := digits?_eq_some hdigits
    exact ⟨_, .hexadecimal (.inl rfl) hne hall hlength, by simp⟩
  · obtain ⟨⟨_, _⟩, hdigits, heq⟩ := Option.map_eq_some_iff.mp h
    cases heq
    obtain ⟨hne, hall, hlength, rfl⟩ := digits?_eq_some hdigits
    exact ⟨_, .hexadecimal (.inr rfl) hne hall hlength, by simp⟩
  · obtain ⟨⟨_, _⟩, hdigits, heq⟩ := Option.map_eq_some_iff.mp h
    cases heq
    obtain ⟨hne, hall, hlength, rfl⟩ := digits?_eq_some hdigits
    exact ⟨_, .decimal hne hall hlength, by simp⟩
  · obtain ⟨⟨_, _⟩, hname, heq⟩ := Option.map_eq_some_iff.mp h
    cases heq
    obtain ⟨hne, hall, rfl⟩ := closed?_eq_some hname
    exact ⟨_, .named hne hall, by simp⟩

end Reference

theorem decode_cons_of_ne {c : Char} (h : c ≠ '&') (s : List Char) :
    decode (c :: s) = c :: decode s := by
  rw [decode]
  exact h

theorem decode_reference {ref : Reference} {c : Char} {r s : List Char}
    (hread : Reference.read? r = some (ref, s)) (hchar : ref.char? = some c) :
    decode ('&' :: r) = c :: decode s := by
  rw [decode]
  split
  · next hnone =>
    rw [hread] at hnone
    contradiction
  · next hsome =>
    rw [hread] at hsome
    cases hsome
    rw [hchar]

theorem Reference.Complete.decode_append {ref : Reference} {text : List Char} (h : ref.Complete text)
    {c : Char} (hc : ref.StandsFor c) (s : List Char) : decode (text ++ s) = c :: decode s := by
  obtain ⟨body, rfl, -, hread⟩ := h.exists_body
  apply decode_reference (hread s) (Reference.char?_eq_some_iff.mpr hc)

theorem Markup.decode_text_append {c : Char} (markup : Markup c) (s : List Char) :
    decode (markup.text ++ s) = c :: decode s := by
  cases markup with
  | plain h => apply decode_cons_of_ne h s
  | hexadecimal marker hmarker digits hne hall hlength hvalue =>
    apply (Reference.Complete.hexadecimal hmarker hne hall hlength).decode_append hvalue
  | decimal digits hne hall hlength hvalue =>
    apply (Reference.Complete.decimal hne hall hlength).decode_append hvalue
  | named name h =>
    obtain ⟨hne, hall⟩ := h.isAlpha
    apply (Reference.Complete.named hne hall).decode_append
    rw [Reference.StandsFor, String.ofList_toList]
    exact h

theorem Marked.decoded_written (marked : Marked) : decoded marked.written = marked.text := by
  unfold decoded written text
  rw [String.toList_ofList]
  congr 1
  induction marked with
  | nil => simp [decode]
  | cons head marked ih =>
    rw [List.flatMap_cons, head.2.decode_text_append, ih, List.map_cons]

end SymbolSearch.Text
