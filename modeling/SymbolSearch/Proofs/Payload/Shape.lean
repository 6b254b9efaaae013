import SymbolSearch.Proofs.Extraction.Slot

/-!
This module contains which literals have the shape of an index and what is reported of one that misses
it. Nothing but the records decides about that: whatever is wrong inside of a symbol, its payload is
still accepted.
-/

namespace SymbolSearch

open Literal (Value)

/--
Whether a value is an array of at least two fields, the second of which is an array.
-/
def IsRecord (value : Value) : Prop :=
  ∃ id symbol rest, value = .array (id :: .array symbol :: rest)

/--
Whether a message tells why a value is no record.
-/
inductive LacksSymbol : Value → String → Prop
  | record {value : Value} (h : ∀ fields, value ≠ .array fields) :
      LacksSymbol value ("expected a record array, found " ++ value.form.description)
  | fields {fields : List Value} (h : fields.length < 2) :
      LacksSymbol (.array fields)
        ("expected [id, symbol], found " ++ toString fields.length ++ " field(s)")
  | symbol {id other : Value} {rest : List Value} (h : ∀ symbol, other ≠ .array symbol) :
      LacksSymbol (.array (id :: other :: rest))
        ("expected a symbol array, found " ++ other.form.description)

/--
Whether a value misses the shape of an index at a position, and a message tells why. In an array that
is the first position without a record, so all values before it are records.
-/
inductive MissesShape : Value → Nat → String → Prop
  | payload {value : Value} (h : ∀ records, value ≠ .array records) :
      MissesShape value 0 ("expected an array of records, found " ++ value.form.description)
  | record {before behind : List Value} {value : Value} {message : String}
      (hbefore : ∀ other ∈ before, IsRecord other) (h : LacksSymbol value message) :
      MissesShape (.array (before ++ value :: behind)) before.length message

theorem exists_symbolOf_eq_ok_iff {value : Value} :
    (∃ symbol, symbolOf value = .ok symbol) ↔ IsRecord value := by
  simp only [symbolOf_eq_ok_iff]
  constructor
  · rintro ⟨symbol, id, rest, rfl⟩
    exact ⟨id, symbol, rest, rfl⟩
  · rintro ⟨id, symbol, rest, rfl⟩
    exact ⟨symbol, id, rest, rfl⟩

theorem lacksSymbol_of_symbolOf {value : Value} {defect : Misshape}
    (h : symbolOf value = .error defect) : LacksSymbol value defect.message := by
  unfold symbolOf at h
  split at h
  case h_1 => contradiction
  case h_2 id other rest hother =>
    cases h
    exact .symbol hother
  case h_3 fields hsymbol hother =>
    cases h
    apply LacksSymbol.fields
    match fields with
    | [] | [_] => simp
    | _ :: _ :: _ => exact absurd rfl (hother _ _ _)
  case h_4 hrecord =>
    cases h
    exact .record hrecord

theorem exists_symbolOf_of_lacksSymbol {value : Value} {message : String}
    (h : LacksSymbol value message) :
    ∃ defect, symbolOf value = .error defect ∧ defect.message = message := by
  cases h with
  | record h =>
    cases value with
    | array fields => exact absurd rfl (h fields)
    | _ => exact ⟨_, rfl, rfl⟩
  | fields h =>
    rename_i fields
    match fields with
    | [] | [_] => exact ⟨_, rfl, rfl⟩
    | _ :: _ :: _ =>
      rw [List.length_cons, List.length_cons] at h
      omega
  | symbol h =>
    rename_i id other rest
    cases other with
    | array symbol => exact absurd rfl (h symbol)
    | _ => exact ⟨_, rfl, rfl⟩

theorem forall_mem_zipIdx_iff {p : α → Prop} {l : List α} :
    (∀ numbered ∈ l.zipIdx, p numbered.1) ↔ ∀ a ∈ l, p a := by
  rw [← List.forall_mem_map, List.zipIdx_map_fst]

theorem exists_symbolsOf_eq_ok_iff {records : List Value} :
    (∃ symbols, symbolsOf records = .ok symbols) ↔ ∀ record ∈ records, IsRecord record := by
  unfold symbolsOf
  simp only [exists_mapM_eq_ok_iff, mapError_eq_ok_iff, exists_symbolOf_eq_ok_iff]
  exact forall_mem_zipIdx_iff

/-- The records are read in their order, so the first one without a symbol is reported. -/
theorem symbolsOf_eq_error_iff {records : List Value} {position : Nat} {defect : Misshape} :
    symbolsOf records = .error (position, defect) ↔ ∃ before value behind,
      records = before ++ value :: behind ∧ before.length = position ∧
        (∀ other ∈ before, IsRecord other) ∧ symbolOf value = .error defect := by
  rw [symbolsOf, mapM_eq_error_iff]
  simp only [mapError_eq_ok_iff, mapError_eq_error_iff, exists_symbolOf_eq_ok_iff]
  constructor
  · rintro ⟨numbered, ⟨value, i⟩, rest, heq, hbefore, cause, hvalue, ⟨⟩⟩
    obtain ⟨before, tail, rfl, rfl, htail⟩ := List.zipIdx_eq_append_iff.mp heq
    cases tail with
    | nil => contradiction
    | cons value behind =>
      rw [List.zipIdx_cons] at htail
      cases htail
      exact ⟨before, value, behind, rfl, (Nat.zero_add _).symm, forall_mem_zipIdx_iff.mp hbefore,
        hvalue⟩
  · rintro ⟨before, value, behind, rfl, rfl, hbefore, hvalue⟩
    refine ⟨before.zipIdx, (value, before.length), behind.zipIdx (before.length + 1), ?_,
      forall_mem_zipIdx_iff.mpr hbefore, defect, hvalue, rfl⟩
    rw [List.zipIdx_append, List.zipIdx_cons, Nat.zero_add]

namespace Extraction

theorem exists_ofValue_eq_ok_iff {value : Value} :
    (∃ extraction, ofValue value = .ok extraction) ↔
      ∃ records, value = .array records ∧ ∀ record ∈ records, IsRecord record := by
  cases value with
  | array records =>
    simp only [ofValue, map_eq_ok_iff, Value.array.injEq, exists_eq_left',
      ← exists_symbolsOf_eq_ok_iff]
    constructor
    · rintro ⟨_, symbols, hsymbols, -⟩
      exact ⟨symbols, hsymbols⟩
    · rintro ⟨symbols, hsymbols⟩
      exact ⟨_, symbols, hsymbols, rfl⟩
  | _ => simp [ofValue]

theorem exists_defect_iff_missesShape {value : Value} {position : Nat} {message : String} :
    (∃ defect, ofValue value = .error (position, defect) ∧ defect.message = message) ↔
      MissesShape value position message := by
  constructor
  · rintro ⟨defect, h, rfl⟩
    cases value with
    | array records =>
      rw [ofValue, map_eq_error_iff, symbolsOf_eq_error_iff] at h
      obtain ⟨before, value, behind, rfl, rfl, hbefore, hvalue⟩ := h
      exact .record hbefore (lacksSymbol_of_symbolOf hvalue)
    | _ =>
      cases h
      exact .payload (by simp)
  · intro h
    cases h with
    | payload h =>
      cases value with
      | array records => exact absurd rfl (h records)
      | _ => exact ⟨_, rfl, rfl⟩
    | record hbefore h =>
      obtain ⟨defect, hdefect, hmessage⟩ := exists_symbolOf_of_lacksSymbol h
      refine ⟨defect, ?_, hmessage⟩
      rw [ofValue, map_eq_error_iff, symbolsOf_eq_error_iff]
      exact ⟨_, _, _, rfl, rfl, hbefore, hdefect⟩

theorem exists_ofValue_eq_error_iff {value : Value} :
    (∃ position defect, ofValue value = .error (position, defect)) ↔
      (∀ records, value ≠ .array records) ∨
        ∃ records, value = .array records ∧ ∃ record ∈ records, ¬IsRecord record := by
  have hrefused : (∃ position defect, ofValue value = .error (position, defect)) ↔
      ¬∃ extraction, ofValue value = .ok extraction := by
    cases ofValue value with
    | ok extraction => simp
    | error error => simpa using ⟨error.1, error.2, rfl⟩
  rw [hrefused, exists_ofValue_eq_ok_iff]
  cases value <;> simp

theorem ofPayload_of_value_eq {payload : String} {value : Value}
    (h : Payload.value payload = .ok value) :
    ofPayload payload =
      (ofValue value).mapError fun (record, defect) => .misshape record defect := by
  unfold ofPayload
  rw [h]
  rfl

theorem ofPayload_eq_misshape_iff {payload : String} {value : Value}
    (h : Payload.value payload = .ok value) {position : Nat} {defect : Misshape} :
    ofPayload payload = .error (.misshape position defect) ↔
      ofValue value = .error (position, defect) := by
  rw [ofPayload_of_value_eq h, mapError_eq_error_iff]
  constructor
  · rintro ⟨⟨_, _⟩, hvalue, ⟨⟩⟩
    exact hvalue
  · intro hvalue
    exact ⟨_, hvalue, rfl⟩

end Extraction

namespace Payload

/--
A payload whose literal can be read is refused exactly if its value is no array or one of the values in
it is no record. The first of these is reported with what is wrong with it. Otherwise something is
extracted and all records are counted.
-/
theorem ofPayload_of_value {payload : String} {value : Value}
    (h : Payload.value payload = .ok value) :
    ((∃ position defect, Extraction.ofPayload payload = .error (.misshape position defect)) ↔
      (∀ records, value ≠ .array records) ∨
        ∃ records, value = .array records ∧ ∃ record ∈ records, ¬IsRecord record) ∧
    (∀ position message,
      (∃ defect, Extraction.ofPayload payload = .error (.misshape position defect) ∧
        defect.message = message) ↔ MissesShape value position message) ∧
    ∀ records, value = .array records → (∀ record ∈ records, IsRecord record) →
      ∃ extraction, Extraction.ofPayload payload = .ok extraction ∧
        extraction.records = records.length := by
  simp only [Extraction.ofPayload_eq_misshape_iff h]
  refine ⟨Extraction.exists_ofValue_eq_error_iff,
    fun _ _ => Extraction.exists_defect_iff_missesShape, ?_⟩
  rintro records rfl hrecords
  obtain ⟨extraction, hextraction⟩ :=
    Extraction.exists_ofValue_eq_ok_iff.mpr ⟨records, rfl, hrecords⟩
  refine ⟨extraction, ?_, (Extraction.slots_of_ofValue hextraction).2⟩
  exact Extraction.ofPayload_eq_ok_iff.mpr ⟨records, h, hextraction⟩

end Payload

namespace MisshapenPayload

def text : String :=
  "[['a',['x',5]],['b',[7],8],['c',3],4]"

/--
The values before the first one that is no record. What is wrong inside of them is no matter of shape.
-/
def before : List Value :=
  [
    .array [.string "a", .array [.string "x", .integer 5]],
    .array [.string "b", .array [.integer 7], .integer 8]
  ]

def value : Value :=
  .array (before ++ .array [.string "c", .integer 3] :: [.integer 4])

theorem value_text : Payload.value text = .ok value := by
  decide +kernel

end MisshapenPayload

namespace Payload

theorem ofPayload_misshapen :
    value MisshapenPayload.text = .ok MisshapenPayload.value ∧
      ∃ defect, Extraction.ofPayload MisshapenPayload.text = .error (.misshape 2 defect) ∧
        defect.message = "expected a symbol array, found a number" := by
  refine ⟨MisshapenPayload.value_text, ?_⟩
  apply ((ofPayload_of_value MisshapenPayload.value_text).2.1 2 _).mpr
  apply MissesShape.record
  · simp [MisshapenPayload.before, IsRecord]
  · exact .symbol (by simp)

end Payload

end SymbolSearch
