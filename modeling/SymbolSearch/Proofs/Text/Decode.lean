import SymbolSearch.Proofs.Text.Padding
import SymbolSearch.Proofs.Text.Reference

/-!
This module contains the proof that decoding goes over a text once, from left to right. What stands in
front of a reference and behind it is decoded on its own, whatever the reference stands for.
-/

namespace SymbolSearch.Text

theorem decode_ampersand {r : List Char}
    (h : ∀ ref rest, Reference.read? r = some (ref, rest) → ref.char? = none) :
    decode ('&' :: r) = '&' :: decode r := by
  rw [decode]
  split
  · rfl
  · next ref rest hread =>
    rw [h ref rest hread]

theorem decode_append_of_not_mem {s : List Char} (h : '&' ∉ s) (t : List Char) :
    decode (s ++ t) = s ++ decode t := by
  induction s with
  | nil => rfl
  | cons c s ih =>
    rw [List.mem_cons, not_or] at h
    rw [List.cons_append, decode_cons_of_ne (Ne.symm h.1), ih h.2, List.cons_append]

theorem Reference.Complete.decode_append_of_none {ref : Reference} {text : List Char}
    (h : ref.Complete text) (hnone : ∀ c, ¬ref.StandsFor c) (s : List Char) :
    decode (text ++ s) = text ++ decode s := by
  obtain ⟨body, rfl, hbody, hread⟩ := h.exists_body
  rw [List.cons_append, decode_ampersand, decode_append_of_not_mem hbody, List.cons_append]
  intro ref' rest heq
  rw [hread, Option.some.injEq, Prod.mk.injEq] at heq
  rw [← heq.1, Option.eq_none_iff_forall_ne_some]
  intro c hc
  apply hnone c (char?_eq_some_iff.mp hc)

/-- No reference goes on over an ampersand. -/
theorem Reference.read?_append_ampersand (r s : List Char) :
    read? (r ++ '&' :: s) = (read? r).map fun (ref, rest) => (ref, rest ++ '&' :: s) := by
  cases hread : read? r with
  | some found =>
    obtain ⟨ref, rest⟩ := found
    obtain ⟨text, hcomplete, heq⟩ := exists_complete_of_read? hread
    obtain ⟨body, rfl, -, hbody⟩ := hcomplete.exists_body
    obtain rfl : r = body ++ rest := (List.cons.inj heq).2
    rw [List.append_assoc, hbody]
    rfl
  | none =>
    rw [Option.map_none, Option.eq_none_iff_forall_ne_some]
    rintro ⟨ref, rest⟩ hsome
    obtain ⟨text, hcomplete, heq⟩ := exists_complete_of_read? hsome
    obtain ⟨body, rfl, hnot, hbody⟩ := hcomplete.exists_body
    have hfront : body <+: r ++ '&' :: s := ⟨rest, (List.cons.inj heq).2.symm⟩
    rw [prefix_append_iff (by simpa using hnot)] at hfront
    obtain ⟨behind, rfl⟩ := hfront
    rw [hbody] at hread
    contradiction

theorem decode_append_ampersand (s t : List Char) :
    decode (s ++ '&' :: t) = decode s ++ decode ('&' :: t) := by
  fun_induction decode s with
  | case1 => rfl
  | case2 r hread ih =>
    rw [List.cons_append, decode_ampersand, ih, List.cons_append]
    intro ref rest hsome
    rw [Reference.read?_append_ampersand, hread] at hsome
    contradiction
  | case3 r ref rest hread hnone ih =>
    rw [List.cons_append, decode_ampersand, ih, List.cons_append]
    intro ref' rest' hsome
    rw [Reference.read?_append_ampersand, hread] at hsome
    cases hsome
    exact hnone
  | case4 r ref rest hread c hc ih =>
    have hread' : Reference.read? (r ++ '&' :: t) = some (ref, rest ++ '&' :: t) := by
      rw [Reference.read?_append_ampersand, hread]
      rfl
    rw [List.cons_append, decode_reference hread' hc, ih, List.cons_append]
  | case5 c r hne ih =>
    rw [List.cons_append, decode_cons_of_ne hne, ih, List.cons_append]

theorem decode_cons_of_not_complete {c : Char} {s : List Char}
    (h : ∀ (ref : Reference) text, ref.Complete text → ¬text <+: c :: s) :
    decode (c :: s) = c :: decode s := by
  by_cases hc : c = '&'
  · subst hc
    apply decode_ampersand
    intro ref rest hread
    obtain ⟨text, hcomplete, heq⟩ := Reference.exists_complete_of_read? hread
    apply absurd _ (h ref text hcomplete)
    exact ⟨rest, heq.symm⟩
  · apply decode_cons_of_ne hc

/--
A text and what one pass over it makes of it. Each step takes a reference off the text, or a single
character where none starts.
-/
inductive Decodes : List Char → List Char → Prop
  | nil : Decodes [] []
  | reference {ref : Reference} {text s t : List Char} {c : Char} (hcomplete : ref.Complete text)
      (hc : ref.StandsFor c) (h : Decodes s t) : Decodes (text ++ s) (c :: t)
  | unknown {ref : Reference} {text s t : List Char} (hcomplete : ref.Complete text)
      (hnone : ∀ c, ¬ref.StandsFor c) (h : Decodes s t) : Decodes (text ++ s) (text ++ t)
  | char {c : Char} {s t : List Char}
      (hnot : ∀ (ref : Reference) text, ref.Complete text → ¬text <+: c :: s) (h : Decodes s t) :
      Decodes (c :: s) (c :: t)

theorem Decodes.decode_eq {s t : List Char} (h : Decodes s t) : decode s = t := by
  induction h with
  | nil => simp [decode]
  | reference hcomplete hc _ ih => rw [hcomplete.decode_append hc, ih]
  | unknown hcomplete hnone _ ih => rw [hcomplete.decode_append_of_none hnone, ih]
  | char hnot _ ih => rw [decode_cons_of_not_complete hnot, ih]

theorem Reference.Complete.ne_nil {ref : Reference} {text : List Char} (h : ref.Complete text) :
    text ≠ [] := by
  cases h <;> apply List.cons_ne_nil

theorem exists_decodes (s : List Char) : ∃ t, Decodes s t := by
  induction hlength : s.length using Nat.strongRecOn generalizing s with
  | ind n ih =>
    subst hlength
    by_cases hstarts : ∃ ref : Reference, ∃ text, ref.Complete text ∧ text <+: s
    · obtain ⟨ref, text, hcomplete, rest, rfl⟩ := hstarts
      have hpos := List.length_pos_iff.mpr hcomplete.ne_nil
      obtain ⟨t, ht⟩ := ih rest.length (by rw [List.length_append]; omega) rest rfl
      by_cases hc : ∃ c, ref.StandsFor c
      · obtain ⟨c, hc⟩ := hc
        exact ⟨c :: t, .reference hcomplete hc ht⟩
      · exact ⟨text ++ t, .unknown hcomplete (not_exists.mp hc) ht⟩
    · cases s with
      | nil => exact ⟨[], .nil⟩
      | cons c s =>
        obtain ⟨t, ht⟩ := ih s.length (Nat.lt_succ_self _) s rfl
        refine ⟨c :: t, .char ?_ ht⟩
        intro ref text hcomplete hfront
        exact hstarts ⟨ref, text, hcomplete, hfront⟩

theorem decode_eq_iff {s t : List Char} : decode s = t ↔ Decodes s t := by
  constructor
  · rintro rfl
    obtain ⟨t, ht⟩ := exists_decodes s
    rw [ht.decode_eq]
    exact ht
  · apply Decodes.decode_eq

theorem decode_eq_self {s : List Char}
    (h : ∀ (ref : Reference) text, ref.Complete text → ¬text <:+: s) : decode s = s := by
  induction s with
  | nil => simp [decode]
  | cons c s ih =>
    rw [decode_cons_of_not_complete, ih]
    · intro ref text hcomplete hpart
      apply h ref text hcomplete (hpart.trans (List.suffix_cons c s).isInfix)
    · intro ref text hcomplete hfront
      apply h ref text hcomplete hfront.isInfix

theorem Reference.Complete.decode_append_append {ref : Reference} {text : List Char}
    (h : ref.Complete text) (s t : List Char) :
    decode (s ++ (text ++ t)) = decode s ++ decode (text ++ t) := by
  obtain ⟨body, rfl, -, -⟩ := h.exists_body
  apply decode_append_ampersand

/--
Decoding is one pass over a text. A reference between two texts is replaced by its character, or kept
if it has none, and the two texts are decoded as if they stood alone; without a reference nothing
changes. So a text is got back from every way to write it, and nothing is decoded twice.
-/
theorem decode_piecewise :
    (∀ s t, decode s = t ↔ Decodes s t) ∧
    (∀ (ref : Reference) (text before behind : List Char), ref.Complete text →
      (∀ c, ref.StandsFor c →
        decode (before ++ (text ++ behind)) = decode before ++ c :: decode behind) ∧
      ((∀ c, ¬ref.StandsFor c) →
        decode (before ++ (text ++ behind)) = decode before ++ (text ++ decode behind))) ∧
    (∀ s, (∀ (ref : Reference) text, ref.Complete text → ¬text <:+: s) → decode s = s) ∧
    ∀ marked : Marked, decoded marked.written = marked.text := by
  refine ⟨fun s t => decode_eq_iff, ?_, fun s => decode_eq_self, Marked.decoded_written⟩
  intro ref text before behind hcomplete
  rw [hcomplete.decode_append_append]
  constructor
  · intro c hc
    rw [hcomplete.decode_append hc]
  · intro hnone
    rw [hcomplete.decode_append_of_none hnone]

example : decoded "&am&amp;lt;&#xD800;&foo;&#38" = "&am&lt;&#xD800;&foo;&#38" := by
  decide +kernel

end SymbolSearch.Text
