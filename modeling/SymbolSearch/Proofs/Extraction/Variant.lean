import Mathlib.Data.List.Forall2
import SymbolSearch.Proofs.Extraction.Append

/-!
This module contains changes to records that change nothing about what is extracted from them: the fields
behind a label can as well be an anchor of their own, and there are fields that nobody reads.
-/

namespace SymbolSearch

open Literal (Value)

theorem map_eq_map_of_forall₂ {r : α → α → Prop} {f : α → β} (hf : ∀ a b, r a b → f a = f b)
    {l l' : List α} (h : List.Forall₂ r l l') : l.map f = l'.map f := by
  rw [← List.forall₂_eq_eq_eq, List.forall₂_map_left_iff, List.forall₂_map_right_iff]
  exact h.imp hf

/--
What the slots of a record hold.
-/
def Slot.ofRecord (record : Value) : Except Misshape (List Slot) :=
  ofSymbol <$> symbolOf record

namespace Extraction

def ofSlots (slots : List (List Slot)) : Extraction where
  entries := slots.flatMap (·.filterMap Slot.entry?)
  warnings := warningsFrom 0 slots
  records := slots.length

theorem ofSymbols_eq_ofSlots (symbols : List (List Value)) :
    ofSymbols symbols = ofSlots (symbols.map Slot.ofSymbol) := by
  apply ext
  case hentries => rfl
  case hwarnings => rfl
  case hrecords => exact (List.length_map _).symm

/-- Nothing of a record counts but its slots. -/
theorem ofValue_array (records : List Value) :
    ofValue (.array records) =
      ofSlots <$> (records.map Slot.ofRecord).zipIdx.mapM fun p => p.1.mapError (p.2, ·) := by
  have hofSymbols : ofSymbols = ofSlots ∘ List.map Slot.ofSymbol := funext ofSymbols_eq_ofSlots
  calc
    ofValue (.array records) = ofSlots <$> List.map Slot.ofSymbol <$> symbolsOf records := by
      rw [← comp_map, ← hofSymbols]
      rfl
    _ = ofSlots <$> records.zipIdx.mapM fun p => (Slot.ofRecord p.1).mapError (p.2, ·) := by
      rw [symbolsOf, map_mapM]
      simp only [map_mapError, Slot.ofRecord]
    _ = ofSlots <$> (records.map Slot.ofRecord).zipIdx.mapM fun p => p.1.mapError (p.2, ·) := by
      rw [List.zipIdx_map, List.mapM_map]
      rfl

theorem ofValue_eq_of_forall₂ {r : Value → Value → Prop}
    (hr : ∀ record record', r record record' → Slot.ofRecord record = Slot.ofRecord record')
    {records records' : List Value} (h : List.Forall₂ r records records') :
    ofValue (.array records) = ofValue (.array records') := by
  rw [ofValue_array, ofValue_array, map_eq_map_of_forall₂ hr h]

end Extraction

/--
Whether two records are the same, unless the label of the first one is followed by a url: in the second
one all that is behind the label may be an anchor of its own.
-/
inductive NestsFields : Value → Value → Prop
  | keep (record : Value) : NestsFields record record
  | nest (id : Value) (label url : String) (rest behind : List Value) :
      NestsFields (.array (id :: .array (.string label :: .string url :: rest) :: behind))
        (.array (id :: .array [.string label, .array (.string url :: rest)] :: behind))

theorem NestsFields.ofRecord_eq {record record' : Value} (h : NestsFields record record') :
    Slot.ofRecord record = Slot.ofRecord record' := by
  cases h with
  | keep => rfl
  | nest => rfl

/--
Whether the fields of two anchors are the same but for the flag and for what is behind the scope.
-/
inductive AlikeFields : List Value → List Value → Prop
  | same (fields : List Value) : AlikeFields fields fields
  | flag (url flag flag' : Value) : AlikeFields [url, flag] [url, flag']
  | scope (url flag flag' scope : Value) (rest rest' : List Value) :
      AlikeFields (url :: flag :: scope :: rest) (url :: flag' :: scope :: rest')

inductive AlikeAnchors : Value → Value → Prop
  | same (value : Value) : AlikeAnchors value value
  | fields {fields fields' : List Value} (h : AlikeFields fields fields') :
      AlikeAnchors (.array fields) (.array fields')

/--
Whether two symbols are the same but for fields of their anchors that nobody reads. A url behind the label
is the first field of the only anchor.
-/
inductive AlikeSymbols : List Value → List Value → Prop
  | nothing : AlikeSymbols [] []
  | inline (label : Value) {url url' : String} {rest rest' : List Value}
      (h : AlikeFields (.string url :: rest) (.string url' :: rest')) :
      AlikeSymbols (label :: .string url :: rest) (label :: .string url' :: rest')
  | nested (label : Value) {anchors anchors' : List Value}
      (hnested : ∀ url rest, anchors ≠ .string url :: rest)
      (h : List.Forall₂ AlikeAnchors anchors anchors') :
      AlikeSymbols (label :: anchors) (label :: anchors')

/--
Whether two records are the same but for fields that nobody reads: the identifier, those behind the symbol
and those of the symbol's anchors.
-/
inductive AlikeRecords : Value → Value → Prop
  | same (record : Value) : AlikeRecords record record
  | fields (id id' value : Value) (rest rest' : List Value) :
      AlikeRecords (.array (id :: value :: rest)) (.array (id' :: value :: rest'))
  | symbol (id id' : Value) {symbol symbol' : List Value} (rest rest' : List Value)
      (h : AlikeSymbols symbol symbol') :
      AlikeRecords (.array (id :: .array symbol :: rest)) (.array (id' :: .array symbol' :: rest'))

theorem AlikeFields.scope_eq {fields fields' : List Value} (h : AlikeFields fields fields') :
    Slot.scope fields = Slot.scope fields' := by
  cases h with
  | same => rfl
  | flag => rfl
  | scope url flag flag' scope => cases scope <;> rfl

theorem AlikeFields.entryOfFields_eq {fields fields' : List Value} (h : AlikeFields fields fields')
    (label : String) : Slot.entryOfFields label fields = Slot.entryOfFields label fields' := by
  have hscope := h.scope_eq
  cases h with
  | same => rfl
  | flag url => cases url <;> rfl
  | scope url =>
    cases url with
    | string url => simp only [Slot.entryOfFields, hscope]
    | _ => rfl

theorem AlikeAnchors.entryOfAnchor_eq {value value' : Value} (h : AlikeAnchors value value')
    (label : String) : Slot.entryOfAnchor label value = Slot.entryOfAnchor label value' := by
  cases h with
  | same => rfl
  | fields h => exact h.entryOfFields_eq label

theorem AlikeAnchors.ne_string {value value' : Value} (h : AlikeAnchors value value')
    (hvalue : ∀ url, value ≠ .string url) : ∀ url, value' ≠ .string url := by
  cases h with
  | same => exact hvalue
  | fields => simp

theorem Slot.ofSymbol_nested {text : String} {anchor : Value} (h : ∀ url, anchor ≠ .string url)
    (anchors : List Value) :
    ofSymbol (.string text :: anchor :: anchors) =
      ((anchor :: anchors).map (entryOfAnchor (Text.decoded text))).zipIdx.map fun p =>
        ofEntry p.2 p.1 := by
  rw [List.zipIdx_map, List.map_map]
  cases anchor with
  | string url => exact absurd rfl (h url)
  | _ => rfl

theorem AlikeSymbols.ofSymbol_eq {symbol symbol' : List Value} (h : AlikeSymbols symbol symbol') :
    Slot.ofSymbol symbol = Slot.ofSymbol symbol' := by
  cases h with
  | nothing => rfl
  | inline label h =>
    cases label with
    | string text => simp only [Slot.ofSymbol, h.entryOfFields_eq]
    | _ => rfl
  | nested label hnested h =>
    cases label with
    | string text =>
      have hanchors := map_eq_map_of_forall₂
        (fun _ _ halike => halike.entryOfAnchor_eq (Text.decoded text)) h
      cases h with
      | nil => rfl
      | @cons anchor anchor' anchors anchors' hhead =>
        have hanchor : ∀ url, anchor ≠ .string url := by
          rintro url rfl
          exact hnested url anchors rfl
        rw [Slot.ofSymbol_nested hanchor, Slot.ofSymbol_nested (hhead.ne_string hanchor), hanchors]
    | _ => rfl

theorem AlikeRecords.ofRecord_eq {record record' : Value} (h : AlikeRecords record record') :
    Slot.ofRecord record = Slot.ofRecord record' := by
  cases h with
  | same => rfl
  | fields id id' value => cases value <;> rfl
  | symbol id id' rest rest' h => exact congrArg Except.ok h.ofSymbol_eq

namespace MixedForms

/--
Records with symbols in both forms. The scopes of the last two are spoiled.
-/
def mixed : List Value :=
  [
    .array [.null, .array [.string "a", .string "u#b", .null, .string "c()"]],
    .array [.null, .array [.string "d", .array [.string "v", .null, .integer 5]]],
    .array [.null, .array [.string "e", .string "w", .null, .boolean true, .null], .null]
  ]

def nested : List Value :=
  [
    .array [.null, .array [.string "a", .array [.string "u#b", .null, .string "c()"]]],
    .array [.null, .array [.string "d", .array [.string "v", .null, .integer 5]]],
    .array [.null, .array [.string "e", .array [.string "w", .null, .boolean true, .null]], .null]
  ]

/--
The records with other identifiers and flags, and with more or fewer fields where they do not count.
-/
def alike : List Value :=
  [
    .array [.array [], .array [.string "a", .string "u#b", .integer 1, .string "c()", .null], .null],
    .array [.integer 2, .array [.string "d", .array [.string "v", .array [], .integer 5, .null]]],
    .array [.string "", .array [.string "e", .string "w", .string "", .boolean true]]
  ]

def extraction : Extraction where
  entries := [⟨"a", "c()", "u#b", some .function⟩]
  warnings := [⟨1, some 0, .scope .number⟩, ⟨2, some 0, .scope .boolean⟩]
  records := 3

theorem ofValue_mixed : Extraction.ofValue (.array mixed) = .ok extraction := by
  decide +kernel

end MixedForms

namespace Extraction

/-- It makes no difference in which of the two forms a symbol with a single anchor is written. -/
theorem ofValue_of_nestsFields {records records' : List Value}
    (h : List.Forall₂ NestsFields records records') :
    ofValue (.array records') = ofValue (.array records) :=
  (ofValue_eq_of_forall₂ (fun _ _ => NestsFields.ofRecord_eq) h).symm

open MixedForms in
theorem ofValue_nested :
    List.Forall₂ NestsFields mixed nested ∧ ofValue (.array nested) = .ok extraction := by
  have hnested : List.Forall₂ NestsFields mixed nested :=
    .cons (.nest _ _ _ _ _) (.cons (.keep _) (.cons (.nest _ _ _ _ _) .nil))
  exact ⟨hnested, (ofValue_of_nestsFields hnested).trans MixedForms.ofValue_mixed⟩

/--
Identifiers, flags and whatever is behind the last field with a meaning can be anything: neither what is
extracted nor what is reported of a missed shape depends on them.
-/
theorem ofValue_of_alikeRecords {records records' : List Value}
    (h : List.Forall₂ AlikeRecords records records') :
    ofValue (.array records') = ofValue (.array records) :=
  (ofValue_eq_of_forall₂ (fun _ _ => AlikeRecords.ofRecord_eq) h).symm

open MixedForms in
theorem ofValue_alike :
    List.Forall₂ AlikeRecords mixed alike ∧ ofValue (.array alike) = .ok extraction := by
  have hanchor : AlikeAnchors (.array [.string "v", .null, .integer 5])
      (.array [.string "v", .array [], .integer 5, .null]) :=
    .fields (.scope _ _ _ _ _ _)
  have halike : List.Forall₂ AlikeRecords mixed alike :=
    .cons (.symbol _ _ _ _ (.inline _ (.scope _ _ _ _ _ _)))
      (.cons (.symbol _ _ _ _ (.nested _ (by simp) (.cons hanchor .nil)))
        (.cons (.symbol _ _ _ _ (.inline _ (.scope _ _ _ _ _ _))) .nil))
  exact ⟨halike, (ofValue_of_alikeRecords halike).trans MixedForms.ofValue_mixed⟩

end Extraction

end SymbolSearch
