import SymbolSearch.Proofs.Extraction.Defect

/-!
This module contains the places that warnings name. The records of all payloads are numbered through, the
warnings stand in the order of their places, and there is one for each place at which something is wrong.
-/

namespace SymbolSearch

open Literal (Value)

namespace Warning

/--
Whether a warning is about an earlier record, or about an earlier anchor of the same record.
-/
def Precedes (first second : Warning) : Prop :=
  first.record < second.record ∨ first.record = second.record ∧
    ∃ i j, first.anchor = some i ∧ second.anchor = some j ∧ i < j

/--
Whether what a warning says is wrong in records is wrong at the place it names.
-/
def IsTrueOf (records : List Value) (warning : Warning) : Prop :=
  ∃ id symbol rest, records[warning.record]? = some (.array (id :: .array symbol :: rest)) ∧
    warning.defect.SpoilsSymbol symbol warning.anchor

theorem Precedes.ne_place {first second : Warning} (h : first.Precedes second) :
    (first.record, first.anchor) ≠ (second.record, second.anchor) := by
  obtain ⟨record, anchor, defect⟩ := first
  obtain ⟨record', anchor', defect'⟩ := second
  rintro ⟨⟩
  rcases h with hlt | ⟨-, i, j, hi, hj, hlt⟩
  · exact Nat.lt_irrefl record hlt
  · rw [hi] at hj
    cases hj
    exact Nat.lt_irrefl i hlt

theorem eq_or_precedes {warnings : List Warning} (h : warnings.Pairwise Precedes) :
    ∀ first ∈ warnings, ∀ second ∈ warnings,
      first = second ∨ first.Precedes second ∨ second.Precedes first := by
  apply List.Pairwise.forall_of_forall_of_flip
  · intro warning _
    exact .inl rfl
  · exact h.imp fun hlt => .inr (.inl hlt)
  · exact h.imp fun hlt => .inr (.inr hlt)

end Warning

theorem pairwise_zipIdx_lt (l : List α) (start : Nat) :
    (l.zipIdx start).Pairwise fun first second => first.2 < second.2 := by
  rw [← List.pairwise_map, List.zipIdx_map_snd]
  exact List.pairwise_lt_range'

namespace Slot

theorem warning?_eq_some_iff {slot : Slot} {record : Nat} {warning : Warning} :
    slot.warning? record = some warning ↔
      slot = skipped warning.anchor warning.defect ∧ warning.record = record := by
  obtain ⟨record', anchor, defect⟩ := warning
  cases slot <;> simp [and_comm, eq_comm]

theorem pairwise_warnings_ofSymbol (symbol : List Value) (record : Nat) :
    ((ofSymbol symbol).filterMap (·.warning? record)).Pairwise Warning.Precedes := by
  simp only [List.pairwise_filterMap, warning?_eq_some_iff]
  unfold ofSymbol
  split
  case h_1 => exact List.pairwise_singleton _ _
  case h_2 text fields =>
    dsimp only
    split
    case h_1 => exact List.pairwise_singleton _ _
    case h_2 => exact List.pairwise_singleton _ _
    case h_3 =>
      rw [List.pairwise_map]
      apply (pairwise_zipIdx_lt fields 0).imp
      rintro ⟨value, i⟩ ⟨value', j⟩ hlt warning ⟨hfirst, hrecord⟩ warning' ⟨hsecond, hrecord'⟩
      rw [ofEntry_eq_skipped_iff] at hfirst hsecond
      exact .inr ⟨hrecord.trans hrecord'.symm, i, j, hfirst.1, hsecond.1, hlt⟩
  case h_3 => exact List.pairwise_singleton _ _

end Slot

namespace Extraction

theorem mem_warningsFrom_iff {slots : List (List Slot)} {warning : Warning} :
    warning ∈ warningsFrom 0 slots ↔ ∃ found, slots[warning.record]? = some found ∧
      Slot.skipped warning.anchor warning.defect ∈ found := by
  simp only [warningsFrom, List.mem_flatMap, Prod.exists, List.mk_mem_zipIdx_iff_getElem?,
    List.mem_filterMap, Slot.warning?_eq_some_iff]
  constructor
  · rintro ⟨found, record, hfound, slot, hslot, rfl, rfl⟩
    exact ⟨found, hfound, hslot⟩
  · rintro ⟨found, hfound, hslot⟩
    exact ⟨found, _, hfound, _, hslot, rfl, rfl⟩

theorem pairwise_warningsFrom (symbols : List (List Value)) (start : Nat) :
    (warningsFrom start (symbols.map Slot.ofSymbol)).Pairwise Warning.Precedes := by
  rw [warningsFrom, List.pairwise_flatMap]
  constructor
  · rintro ⟨found, record⟩ hfound
    obtain ⟨symbol, -, rfl⟩ := List.mem_map.mp (List.fst_mem_of_mem_zipIdx hfound)
    exact Slot.pairwise_warnings_ofSymbol symbol record
  · apply (pairwise_zipIdx_lt _ start).imp
    rintro ⟨found, record⟩ ⟨found', record'⟩ hlt warning hwarning warning' hwarning'
    simp only [List.mem_filterMap, Slot.warning?_eq_some_iff] at hwarning hwarning'
    obtain ⟨_, -, -, rfl⟩ := hwarning
    obtain ⟨_, -, -, rfl⟩ := hwarning'
    exact .inl hlt

theorem getElem?_symbols_eq_some_iff {records : List Value} {symbols : List (List Value)}
    (h : records.map symbolOf = symbols.map .ok) {position : Nat} {symbol : List Value} :
    symbols[position]? = some symbol ↔
      ∃ id rest, records[position]? = some (.array (id :: .array symbol :: rest)) := by
  have hposition : records[position]?.map symbolOf = symbols[position]?.map .ok := by
    rw [← List.getElem?_map, ← List.getElem?_map, h]
  constructor
  · intro hsymbol
    rw [hsymbol] at hposition
    obtain ⟨record, hrecord, hsymbolOf⟩ := Option.map_eq_some_iff.mp hposition
    obtain ⟨id, rest, rfl⟩ := symbolOf_eq_ok_iff.mp hsymbolOf
    exact ⟨id, rest, hrecord⟩
  · rintro ⟨id, rest, hrecord⟩
    rw [hrecord] at hposition
    obtain ⟨symbol, hsymbol, heq⟩ := Option.map_eq_some_iff.mp hposition.symm
    cases heq
    exact hsymbol

theorem mem_warningsFrom_ofSymbol_iff {records : List Value} {symbols : List (List Value)}
    (h : records.map symbolOf = symbols.map .ok) {warning : Warning} :
    warning ∈ warningsFrom 0 (symbols.map Slot.ofSymbol) ↔ warning.IsTrueOf records := by
  simp only [mem_warningsFrom_iff, List.getElem?_map, Option.map_eq_some_iff,
    getElem?_symbols_eq_some_iff h]
  constructor
  · rintro ⟨_, ⟨symbol, ⟨id, rest, hrecord⟩, rfl⟩, hskipped⟩
    exact ⟨id, symbol, rest, hrecord, Slot.skipped_mem_ofSymbol_iff.mp hskipped⟩
  · rintro ⟨id, symbol, rest, hrecord, hspoils⟩
    exact ⟨_, ⟨symbol, ⟨id, rest, hrecord⟩, rfl⟩, Slot.skipped_mem_ofSymbol_iff.mpr hspoils⟩

/--
Whether the warnings of what was extracted from records tell everything that is wrong in them, each thing
once and in the order of the places.
-/
structure WarnsOf (extraction : Extraction) (records : List Value) : Prop where
  records_eq : extraction.records = records.length
  mem_iff : ∀ warning, warning ∈ extraction.warnings ↔ warning.IsTrueOf records
  record_lt : ∀ warning ∈ extraction.warnings, warning.record < extraction.records
  ascending : extraction.warnings.Pairwise Warning.Precedes
  nodup_places : (extraction.warnings.map fun warning => (warning.record, warning.anchor)).Nodup
  /-- A warning about a symbol as a whole is the only one of its record. -/
  alone : ∀ warning ∈ extraction.warnings, warning.anchor = none →
    ∀ other ∈ extraction.warnings, other.record = warning.record → other = warning

theorem warnsOf_of_ofValue {records : List Value} {extraction : Extraction}
    (h : ofValue (.array records) = .ok extraction) : extraction.WarnsOf records := by
  obtain ⟨_, symbols, ⟨⟩, hsymbols, rfl⟩ := ofValue_eq_ok_iff.mp h
  have hrecords : (ofSymbols symbols).records = records.length := (slots_of_ofValue h).2
  have hmem (warning : Warning) :
      warning ∈ (ofSymbols symbols).warnings ↔ warning.IsTrueOf records :=
    mem_warningsFrom_ofSymbol_iff hsymbols
  have hascending : (ofSymbols symbols).warnings.Pairwise Warning.Precedes :=
    pairwise_warningsFrom symbols 0
  constructor
  case records_eq => exact hrecords
  case mem_iff => exact hmem
  case ascending => exact hascending
  case record_lt =>
    intro warning hwarning
    obtain ⟨id, symbol, rest, hrecord, -⟩ := (hmem warning).mp hwarning
    rw [hrecords]
    exact (List.getElem?_eq_some_iff.mp hrecord).1
  case nodup_places =>
    rw [List.Nodup, List.pairwise_map]
    exact hascending.imp Warning.Precedes.ne_place
  case alone =>
    intro warning hwarning hnone other hother hrecord
    -- The order of two warnings of one record is decided by anchors, which both of them have.
    rcases Warning.eq_or_precedes hascending other hother warning hwarning with
      heq | (hlt | ⟨-, _, _, _, hsome, -⟩) | (hlt | ⟨-, _, _, hsome, -⟩)
    · exact heq
    · omega
    · rw [hnone] at hsome
      contradiction
    · omega
    · rw [hnone] at hsome
      contradiction

/--
Put together, the warnings of payloads are those of their records in one row: numbered through, in the
order of the places and one for each place at which something is wrong.
-/
theorem warnsOf_foldl_append {payloads : List String} {parts : List Extraction}
    (h : payloads.map ofPayload = parts.map .ok) :
    ∃ lists : List (List Value),
      payloads.map Payload.value = lists.map (fun records => .ok (.array records)) ∧
        (parts.foldl (· ++ ·) {} : Extraction).WarnsOf lists.flatten := by
  obtain ⟨lists, hvalues, hparts⟩ := exists_lists_of_map_ofPayload h
  exact ⟨lists, hvalues, warnsOf_of_ofValue (ofValue_flatten hparts)⟩

end Extraction

namespace SpoiledPayloads

/--
Payloads with symbols that are spoiled as a whole or at some of their anchors. The last one has fewer
entries than records, and the one before it has nothing at all.
-/
def payloads : List String :=
  ["[['',['a',['u'],5,['v',1,7]]],['',['b',['w']]]]", "var x=[];", "[['',['c','u',1,true]],['',[]]]"]

def parts : List Extraction :=
  [
    {
      entries := [⟨"a", "", "u", none⟩, ⟨"b", "", "w", none⟩]
      warnings := [⟨0, some 1, .anchor .number⟩, ⟨0, some 2, .scope .number⟩]
      records := 2
    },
    {},
    {
      warnings := [⟨0, some 0, .scope .boolean⟩, ⟨1, none, .label none⟩]
      records := 2
    }
  ]

end SpoiledPayloads

namespace Extraction

open SpoiledPayloads in
theorem warnsOf_spoiledPayloads :
    payloads.map ofPayload = parts.map .ok ∧
      (parts.foldl (· ++ ·) {} : Extraction).warnings =
        [
          ⟨0, some 1, .anchor .number⟩,
          ⟨0, some 2, .scope .number⟩,
          ⟨2, some 0, .scope .boolean⟩,
          ⟨3, none, .label none⟩
        ] ∧
      ∃ lists : List (List Value),
        payloads.map Payload.value = lists.map (fun records => .ok (.array records)) ∧
          (parts.foldl (· ++ ·) {} : Extraction).WarnsOf lists.flatten := by
  have hparts : payloads.map ofPayload = parts.map .ok := by decide +kernel
  exact ⟨hparts, by decide, warnsOf_foldl_append hparts⟩

end Extraction

end SymbolSearch
