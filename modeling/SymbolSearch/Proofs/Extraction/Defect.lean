import SymbolSearch.Proofs.Extraction.Slot

/-!
This module contains what it takes for a symbol or an anchor to be spoiled, told from the values alone,
and the proof that exactly the spoiled ones are skipped, each for what is wrong with it.
-/

namespace SymbolSearch

open Literal (Value)

namespace Defect

/--
Whether a defect spoils an anchor with the given fields.
-/
inductive SpoilsFields : List Value → Defect → Prop
  | url {fields : List Value} (h : ∀ url rest, fields ≠ .string url :: rest) :
      SpoilsFields fields .url
  | scope {url : String} {flag value : Value} {rest : List Value} (hnull : value ≠ .null)
      (hstring : ∀ scope, value ≠ .string scope) :
      SpoilsFields (.string url :: flag :: value :: rest) (.scope value.form)

inductive SpoilsAnchor : Value → Defect → Prop
  | anchor {value : Value} (h : ∀ fields, value ≠ .array fields) :
      SpoilsAnchor value (.anchor value.form)
  | fields {fields : List Value} {defect : Defect} (h : SpoilsFields fields defect) :
      SpoilsAnchor (.array fields) defect

/--
Whether a defect spoils a symbol or, where a number is given, one of its anchors. The url behind the
label of a symbol in the older form makes up one anchor with all that follows.
-/
inductive SpoilsSymbol : List Value → Option Nat → Defect → Prop
  | nothing : SpoilsSymbol [] none (.label none)
  | label {value : Value} {rest : List Value} (h : ∀ text, value ≠ .string text) :
      SpoilsSymbol (value :: rest) none (.label (some value.form))
  | noAnchors {text : String} : SpoilsSymbol [.string text] none (.noAnchors (Text.decoded text))
  | inline {text url : String} {rest : List Value} {defect : Defect}
      (h : SpoilsFields (.string url :: rest) defect) :
      SpoilsSymbol (.string text :: .string url :: rest) (some 0) defect
  | anchor {text : String} {anchors : List Value} {i : Nat} {value : Value} {defect : Defect}
      (hnested : ∀ url rest, anchors ≠ .string url :: rest) (hvalue : anchors[i]? = some value)
      (h : SpoilsAnchor value defect) :
      SpoilsSymbol (.string text :: anchors) (some i) defect

end Defect

namespace Slot

open Defect

theorem scope_eq_error_iff {fields : List Value} {defect : Defect} :
    scope fields = .error defect ↔ ∃ first flag value rest, fields = first :: flag :: value :: rest ∧
      value ≠ .null ∧ (∀ scope, value ≠ .string scope) ∧ defect = .scope value.form := by
  unfold scope
  split
  case h_1 => simp
  case h_2 => simp
  case h_3 first flag value rest hstring hnull =>
    constructor
    · rintro ⟨⟩
      exact ⟨first, flag, value, rest, rfl, hnull, hstring, rfl⟩
    · rintro ⟨_, _, _, _, ⟨⟩, -, -, rfl⟩
      rfl
  case h_4 hshort =>
    constructor
    · intro h
      contradiction
    · rintro ⟨first, flag, value, rest, rfl, -, -, -⟩
      exact absurd rfl (hshort first flag value rest)

theorem entryOfFields_eq_error_iff {label : String} {fields : List Value} {defect : Defect} :
    entryOfFields label fields = .error defect ↔ SpoilsFields fields defect := by
  unfold entryOfFields
  split
  case h_1 url rest =>
    simp only [bind_eq_error_iff, scope_eq_error_iff]
    constructor
    · rintro (⟨_, flag, value, rest, ⟨⟩, hnull, hstring, rfl⟩ | ⟨_, _, hpure⟩)
      · exact .scope hnull hstring
      · contradiction
    · intro h
      cases h with
      | url h => exact absurd rfl (h url rest)
      | scope hnull hstring => exact .inl ⟨_, _, _, _, rfl, hnull, hstring, rfl⟩
  case h_2 hurl =>
    constructor
    · rintro ⟨⟩
      exact .url hurl
    · intro h
      cases h with
      | url => rfl
      | scope => exact absurd rfl (hurl _ _)

theorem entryOfAnchor_eq_error_iff {label : String} {value : Value} {defect : Defect} :
    entryOfAnchor label value = .error defect ↔ SpoilsAnchor value defect := by
  cases value with
  | array fields =>
    rw [entryOfAnchor, entryOfFields_eq_error_iff]
    constructor
    · intro h
      exact .fields h
    · intro h
      cases h with
      | anchor h => exact absurd rfl (h fields)
      | fields h => exact h
  | _ =>
    constructor
    · rintro ⟨⟩
      exact .anchor (by simp)
    · intro h
      cases h
      rfl

theorem ofEntry_eq_skipped_iff {i : Nat} {result : Except Defect Entry} {anchor : Option Nat}
    {defect : Defect} :
    ofEntry i result = skipped anchor defect ↔ anchor = some i ∧ result = .error defect := by
  cases result <;> simp [ofEntry, eq_comm]

theorem skipped_mem_anchors_iff {label : String} {anchors : List Value} {anchor : Option Nat}
    {defect : Defect} :
    skipped anchor defect ∈
        anchors.zipIdx.map (fun (value, i) => ofEntry i (entryOfAnchor label value)) ↔
      ∃ i value, anchor = some i ∧ anchors[i]? = some value ∧ SpoilsAnchor value defect := by
  simp only [List.mem_map, Prod.exists, List.mk_mem_zipIdx_iff_getElem?, ofEntry_eq_skipped_iff,
    entryOfAnchor_eq_error_iff]
  constructor
  · rintro ⟨value, i, hvalue, rfl, hdefect⟩
    exact ⟨i, value, rfl, hvalue, hdefect⟩
  · rintro ⟨i, value, rfl, hvalue, hdefect⟩
    exact ⟨value, i, hvalue, rfl, hdefect⟩

theorem skipped_mem_ofSymbol_string_iff {text : String} {fields : List Value} {anchor : Option Nat}
    {defect : Defect} :
    skipped anchor defect ∈ ofSymbol (.string text :: fields) ↔
      SpoilsSymbol (.string text :: fields) anchor defect := by
  unfold ofSymbol
  dsimp only
  split
  case h_1 =>
    rw [List.mem_singleton]
    constructor
    · rintro ⟨⟩
      exact .noAnchors
    · intro h
      cases h with
      | label h => exact absurd rfl (h text)
      | noAnchors => rfl
      | anchor hnested hvalue => contradiction
  case h_2 url rest =>
    rw [List.mem_singleton, eq_comm, ofEntry_eq_skipped_iff, entryOfFields_eq_error_iff]
    constructor
    · rintro ⟨rfl, h⟩
      exact .inline h
    · intro h
      cases h with
      | label h => exact absurd rfl (h text)
      | inline h => exact ⟨rfl, h⟩
      | anchor hnested => exact absurd rfl (hnested url rest)
  case h_3 hnil hnested =>
    rw [skipped_mem_anchors_iff]
    constructor
    · rintro ⟨i, value, rfl, hvalue, h⟩
      exact .anchor hnested hvalue h
    · intro h
      cases h with
      | label h => exact absurd rfl (h text)
      | noAnchors => exact absurd rfl hnil
      | inline => exact absurd rfl (hnested _ _)
      | anchor _ hvalue h => exact ⟨_, _, rfl, hvalue, h⟩

/-- What is skipped of a symbol is what is spoiled in it. -/
theorem skipped_mem_ofSymbol_iff {symbol : List Value} {anchor : Option Nat} {defect : Defect} :
    skipped anchor defect ∈ ofSymbol symbol ↔ SpoilsSymbol symbol anchor defect := by
  cases symbol with
  | nil =>
    rw [ofSymbol, List.mem_singleton]
    constructor
    · rintro ⟨⟩
      exact .nothing
    · rintro ⟨⟩
      rfl
  | cons value rest =>
    cases value with
    | string text => exact skipped_mem_ofSymbol_string_iff
    | _ =>
      -- Without a label nothing else of the symbol is looked at.
      simp only [ofSymbol, List.mem_singleton]
      constructor
      · rintro ⟨⟩
        exact .label (by simp)
      · rintro ⟨⟩
        rfl

end Slot

end SymbolSearch
