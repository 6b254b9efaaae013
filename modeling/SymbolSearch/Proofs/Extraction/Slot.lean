import Mathlib.Algebra.GroupWithZero.Nat
import SymbolSearch.Proofs.Extraction.Append

/-!
This module contains the number of slots in records and the proof that each slot is accounted for
once, by an entry or by a warning.
-/

namespace SymbolSearch

open Literal (Value)

/--
How many slots a symbol has: one for each anchor behind its label, and a single one where there is no
label, no anchor, or the url of an only anchor.
-/
def slotsOfSymbol : List Value → Nat
  | .string _ :: .string _ :: _ => 1
  | .string _ :: anchor :: anchors => (anchor :: anchors).length
  | _ => 1

/--
How many slots the symbol of a record has.
-/
def slotsOfRecord : Value → Nat
  | .array (_ :: .array symbol :: _) => slotsOfSymbol symbol
  | _ => 0

theorem symbolOf_eq_ok_iff {record : Value} {symbol : List Value} :
    symbolOf record = .ok symbol ↔ ∃ id rest, record = .array (id :: .array symbol :: rest) := by
  unfold symbolOf
  split <;> simp_all

theorem slotsOfRecord_of_symbolOf {record : Value} {symbol : List Value}
    (h : symbolOf record = .ok symbol) : slotsOfRecord record = slotsOfSymbol symbol := by
  obtain ⟨id, rest, rfl⟩ := symbolOf_eq_ok_iff.mp h
  rfl

namespace Slot

@[simp]
theorem entry?_entry (value : Entry) : Slot.entry? (entry value) = some value :=
  rfl

@[simp]
theorem entry?_skipped (anchor : Option Nat) (defect : Defect) :
    Slot.entry? (skipped anchor defect) = none :=
  rfl

@[simp]
theorem warning?_entry (value : Entry) (record : Nat) : (entry value).warning? record = none :=
  rfl

@[simp]
theorem warning?_skipped (anchor : Option Nat) (defect : Defect) (record : Nat) :
    (skipped anchor defect).warning? record = some { record, anchor, defect } :=
  rfl

theorem length_ofSymbol (symbol : List Value) : (ofSymbol symbol).length = slotsOfSymbol symbol := by
  unfold ofSymbol
  split
  · rfl
  · next text fields =>
    dsimp only
    split
    · rfl
    · rfl
    · next anchors hne hinline =>
      obtain ⟨anchor, rest, rfl⟩ := List.exists_cons_of_ne_nil hne
      rw [List.length_map, List.length_zipIdx, slotsOfSymbol.eq_def]
      split <;> simp_all
  · next first rest hlabel =>
    cases first with
    | string text => simp at hlabel
    | _ => rfl

/-- In each slot there is either an entry or a warning. -/
theorem length_filterMap_add (slots : List Slot) (record : Nat) :
    (slots.filterMap entry?).length + (slots.filterMap (·.warning? record)).length =
      slots.length := by
  induction slots with
  | nil => rfl
  | cons slot slots ih =>
    cases slot with
    | entry value =>
      simp only [List.filterMap_cons, entry?_entry, warning?_entry, List.length_cons]
      omega
    | skipped anchor defect =>
      simp only [List.filterMap_cons, entry?_skipped, warning?_skipped, List.length_cons]
      omega

end Slot

namespace Extraction

theorem length_flatMap_add_warningsFrom (slots : List (List Slot)) (start : Nat) :
    (slots.flatMap (·.filterMap Slot.entry?)).length + (warningsFrom start slots).length =
      (slots.map List.length).sum := by
  induction slots generalizing start with
  | nil => rfl
  | cons first rest ih =>
    have := Slot.length_filterMap_add first start
    have := ih (start + 1)
    rw [warningsFrom_cons, List.flatMap_cons, List.length_append, List.length_append, List.map_cons,
      List.sum_cons]
    omega

theorem length_entries_add_length_warnings (symbols : List (List Value)) :
    (ofSymbols symbols).entries.length + (ofSymbols symbols).warnings.length =
      (symbols.map slotsOfSymbol).sum := by
  have hlengths : (symbols.map Slot.ofSymbol).map List.length = symbols.map slotsOfSymbol := by
    rw [List.map_map]
    apply List.map_congr_left
    intro symbol _
    apply Slot.length_ofSymbol symbol
  rw [← hlengths]
  exact length_flatMap_add_warningsFrom (symbols.map Slot.ofSymbol) 0

theorem slots_of_ofValue {records : List Value} {extraction : Extraction}
    (h : ofValue (.array records) = .ok extraction) :
    extraction.entries.length + extraction.warnings.length = (records.map slotsOfRecord).sum ∧
      extraction.records = records.length := by
  obtain ⟨_, symbols, heq, hsymbols, rfl⟩ := ofValue_eq_ok_iff.mp h
  cases heq
  constructor
  · rw [length_entries_add_length_warnings,
      map_eq_map_of_map_eq_map_ok (fun _ _ => slotsOfRecord_of_symbolOf) hsymbols]
  · simpa [ofSymbols] using (congrArg List.length hsymbols).symm

end Extraction

end SymbolSearch
