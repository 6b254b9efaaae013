import SymbolSearch.Extraction.Shape
import SymbolSearch.Proofs.Literal.Rendering
import SymbolSearch.Proofs.Text.Reference

/-!
This module contains the records that a generator writes and the proof that what it wrote down in
them is extracted from them.
-/

namespace SymbolSearch

open Literal (Value)

/--
What a generator knows of a documented thing.
-/
structure Subject where
  label : String
  scope : String
  url : String
  deriving Repr, DecidableEq

def Subject.entry (subject : Subject) : Entry where
  label := subject.label
  scope := subject.scope
  url := subject.url
  kind := Kind.infer? subject.url subject.scope

/--
A place at which something is documented. The flag may be anything but an array.
-/
structure Anchor where
  url : String
  flag : Value
  hflag : flag.depth = 0
  scope : Text.Marked

def Anchor.value (anchor : Anchor) : Value :=
  .array [.string anchor.url, anchor.flag, .string anchor.scope.written]

/--
A record of things that share their label. The identifier may be anything but an array.
-/
structure Record where
  id : Value
  hid : id.depth = 0
  label : Text.Marked
  anchors : List Anchor
  hanchors : anchors ≠ []

namespace Record

def symbol (record : Record) : List Value :=
  .string record.label.written :: record.anchors.map Anchor.value

def value (record : Record) : Value :=
  .array [record.id, .array record.symbol]

def subjects (record : Record) : List Subject :=
  record.anchors.map fun anchor =>
    { label := record.label.text, scope := anchor.scope.text, url := anchor.url }

end Record

theorem map_zipIdx_eq_map {f : α × Nat → β} {g : α → β} (h : ∀ p, f p = g p.1) (l : List α) :
    l.zipIdx.map f = l.map g := by
  have hcomp : f = g ∘ Prod.fst := funext h
  rw [hcomp, ← List.map_map, List.zipIdx_map_fst]

theorem Slot.entryOfAnchor_value (label : String) (anchor : Anchor) :
    entryOfAnchor label anchor.value =
      .ok (Subject.entry { label, scope := anchor.scope.text, url := anchor.url }) := by
  simp only [entryOfAnchor, entryOfFields, scope, Anchor.value, bind, Except.bind,
    Text.Marked.decoded_written]
  rfl

theorem Slot.ofSymbol_symbol (record : Record) :
    ofSymbol record.symbol = record.subjects.map (.entry ·.entry) := by
  have hanchors : ofSymbol record.symbol =
      (record.anchors.map Anchor.value).zipIdx.map fun p =>
        ofEntry p.2 (entryOfAnchor record.label.text p.1) := by
    obtain ⟨anchor, anchors, hcons⟩ := List.exists_cons_of_ne_nil record.hanchors
    unfold Record.symbol ofSymbol
    rw [hcons, ← Text.Marked.decoded_written]
    rfl
  rw [hanchors, List.zipIdx_map, List.map_map, Record.subjects, List.map_map]
  apply map_zipIdx_eq_map
  intro p
  simp only [Function.comp_apply, Prod.map_fst, Prod.map_snd, entryOfAnchor_value]
  rfl

theorem symbolsOf_map_value (records : List Record) :
    symbolsOf (records.map Record.value) = .ok (records.map Record.symbol) := by
  unfold symbolsOf
  rw [List.zipIdx_map, List.mapM_map]
  change records.zipIdx.mapM (fun p => pure p.1.symbol) = _
  rw [List.mapM_pure, map_zipIdx_eq_map (fun _ => rfl)]
  rfl

namespace Extraction

theorem ofSymbols_map_symbol (records : List Record) :
    ofSymbols (records.map Record.symbol) =
      {
        entries := (records.flatMap Record.subjects).map Subject.entry
        warnings := []
        records := records.length
      } := by
  have hslots : (records.map Record.symbol).map Slot.ofSymbol =
      records.map fun record => record.subjects.map (.entry ·.entry) := by
    rw [List.map_map]
    apply List.map_congr_left
    intro record _
    apply Slot.ofSymbol_symbol record
  unfold ofSymbols
  rw [hslots, Extraction.mk.injEq]
  refine ⟨?_, ?_, by simp⟩
  · rw [List.flatMap_map, List.map_flatMap]
    congr 1
    funext record
    simp [Function.comp_def, Slot.entry?]
  · rw [List.zipIdx_map, List.flatMap_map, List.flatMap_eq_nil_iff]
    intro p _
    simp [Slot.warning?]

theorem ofValue_records (records : List Record) :
    ofValue (.array (records.map Record.value)) =
      .ok {
        entries := (records.flatMap Record.subjects).map Subject.entry
        warnings := []
        records := records.length
      } := by
  simp only [ofValue, symbolsOf_map_value, ← ofSymbols_map_symbol]
  rfl

end Extraction

theorem depth_go_le_of_forall {values : List Value} {n : Nat} (h : ∀ value ∈ values, value.depth ≤ n) :
    Value.depth.go values ≤ n := by
  induction values with
  | nil => apply Nat.zero_le n
  | cons value values ih =>
    rw [List.forall_mem_cons] at h
    have := ih h.2
    simp only [Value.depth.go]
    omega

theorem Anchor.depth_value (anchor : Anchor) : anchor.value.depth = 1 := by
  simp [value, Value.depth, Value.depth.go, anchor.hflag]

theorem Record.depth_value_le (record : Record) : record.value.depth ≤ 3 := by
  have hanchors : Value.depth.go (record.anchors.map Anchor.value) ≤ 1 := by
    apply depth_go_le_of_forall
    simp [Anchor.depth_value]
  simp only [value, symbol, Value.depth, Value.depth.go, record.hid]
  omega

theorem depth_records_le (records : List Record) :
    (Value.array (records.map Record.value)).depth ≤ 4 := by
  have hrecords : Value.depth.go (records.map Record.value) ≤ 3 := by
    apply depth_go_le_of_forall
    simp [Record.depth_value_le]
  simp only [Value.depth]
  omega

end SymbolSearch
