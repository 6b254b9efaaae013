import SymbolSearch.Payload
import SymbolSearch.Proofs.Except

/-!
This module contains the proof that it does not matter in how many parts records are extracted: what
was extracted from the parts makes, put together in order, what is extracted from all of them at once.
-/

namespace SymbolSearch

open Literal (Value)

theorem symbolsOf_eq_ok_iff {records : List Value} {symbols : List (List Value)} :
    symbolsOf records = .ok symbols ↔ records.map symbolOf = symbols.map .ok := by
  unfold symbolsOf
  -- The number of a record only matters where it has no symbol.
  rw [mapM_eq_ok_iff, map_eq_map_ok_congr (fun _ _ => mapError_eq_ok_iff)]
  conv => rhs; rw [← List.zipIdx_map_fst 0 records, List.map_map]
  rfl

namespace Warning

@[simp]
theorem shift_zero (warning : Warning) : warning.shift 0 = warning :=
  rfl

theorem shift_shift (warning : Warning) (count count' : Nat) :
    (warning.shift count).shift count' = warning.shift (count + count') := by
  simp [shift, Nat.add_assoc]

end Warning

theorem Slot.warning?_add (slot : Slot) (record count : Nat) :
    slot.warning? (record + count) = (slot.warning? record).map (·.shift count) := by
  cases slot <;> rfl

namespace Extraction

theorem ext {first second : Extraction} (hentries : first.entries = second.entries)
    (hwarnings : first.warnings = second.warnings) (hrecords : first.records = second.records) :
    first = second := by
  cases first
  cases second
  simp_all

section

variable (first second : Extraction)

@[simp]
theorem entries_append : (first ++ second).entries = first.entries ++ second.entries :=
  rfl

@[simp]
theorem warnings_append :
    (first ++ second).warnings = first.warnings ++ second.warnings.map (·.shift first.records) :=
  rfl

@[simp]
theorem records_append : (first ++ second).records = first.records + second.records :=
  rfl

end

theorem append_assoc (first second third : Extraction) :
    first ++ second ++ third = first ++ (second ++ third) := by
  apply ext
  case hentries => simp
  case hwarnings => simp [Warning.shift_shift, Function.comp_def, Nat.add_comm]
  case hrecords => simp [Nat.add_assoc]

theorem nothing_append (part : Extraction) : {} ++ part = part := by
  apply ext <;> simp

theorem append_nothing (part : Extraction) : part ++ {} = part := by
  apply ext <;> simp

instance : Std.Associative (fun first second : Extraction => first ++ second) where
  assoc := append_assoc

/--
The warnings in the slots of symbols whose records are numbered from `start` on.
-/
def warningsFrom (start : Nat) (slots : List (List Slot)) : List Warning :=
  (slots.zipIdx start).flatMap fun (slots, record) => slots.filterMap (·.warning? record)

theorem warningsFrom_cons (start : Nat) (slots : List Slot) (rest : List (List Slot)) :
    warningsFrom start (slots :: rest) =
      slots.filterMap (·.warning? start) ++ warningsFrom (start + 1) rest := by
  simp [warningsFrom]

theorem warningsFrom_append (start : Nat) (first second : List (List Slot)) :
    warningsFrom start (first ++ second) =
      warningsFrom start first ++ warningsFrom (start + first.length) second := by
  simp [warningsFrom, List.zipIdx_append]

theorem warningsFrom_add (start count : Nat) (slots : List (List Slot)) :
    warningsFrom (start + count) slots = (warningsFrom start slots).map (·.shift count) := by
  induction slots generalizing start with
  | nil => rfl
  | cons first rest ih =>
    have hfirst : first.filterMap (·.warning? (start + count)) =
        (first.filterMap (·.warning? start)).map (·.shift count) := by
      simp [Slot.warning?_add, List.map_filterMap]
    rw [warningsFrom_cons, warningsFrom_cons, List.map_append, hfirst, ← ih, Nat.add_right_comm]

theorem foldl_append (part : Extraction) (parts : List Extraction) :
    parts.foldl (· ++ ·) part = part ++ parts.foldl (· ++ ·) {} := by
  calc
    parts.foldl (· ++ ·) part = parts.foldl (· ++ ·) (part ++ {}) := by rw [append_nothing]
    _ = part ++ parts.foldl (· ++ ·) {} := List.foldl_assoc

theorem ofSymbols_append (first second : List (List Value)) :
    ofSymbols (first ++ second) = ofSymbols first ++ ofSymbols second := by
  apply ext
  case hentries => simp [ofSymbols]
  case hwarnings =>
    change warningsFrom 0 ((first ++ second).map Slot.ofSymbol) =
      warningsFrom 0 (first.map Slot.ofSymbol) ++
        (warningsFrom 0 (second.map Slot.ofSymbol)).map (·.shift first.length)
    rw [List.map_append, warningsFrom_append, List.length_map, warningsFrom_add]
  case hrecords => simp [ofSymbols]

theorem ofValue_eq_ok_iff {value : Value} {extraction : Extraction} :
    ofValue value = .ok extraction ↔ ∃ records symbols, value = .array records ∧
      records.map symbolOf = symbols.map .ok ∧ ofSymbols symbols = extraction := by
  cases value with
  | array records =>
    rw [ofValue, map_eq_ok_iff]
    constructor
    · rintro ⟨symbols, hsymbols, hextraction⟩
      exact ⟨records, symbols, rfl, symbolsOf_eq_ok_iff.mp hsymbols, hextraction⟩
    · rintro ⟨_, symbols, heq, hsymbols, hextraction⟩
      cases heq
      exact ⟨symbols, symbolsOf_eq_ok_iff.mpr hsymbols, hextraction⟩
  | _ => simp [ofValue]

theorem ofValue_append {first second : List Value} {part part' : Extraction}
    (hfirst : ofValue (.array first) = .ok part) (hsecond : ofValue (.array second) = .ok part') :
    ofValue (.array (first ++ second)) = .ok (part ++ part') := by
  obtain ⟨_, symbols, heq, hsymbols, rfl⟩ := ofValue_eq_ok_iff.mp hfirst
  obtain ⟨_, symbols', heq', hsymbols', rfl⟩ := ofValue_eq_ok_iff.mp hsecond
  cases heq
  cases heq'
  rw [ofValue_eq_ok_iff]
  refine ⟨_, symbols ++ symbols', rfl, ?_, ofSymbols_append symbols symbols'⟩
  rw [List.map_append, List.map_append, hsymbols, hsymbols']

/--
A way to put parts together, two at a time. It may put in nothing at all anywhere.
-/
inductive Assembly
  | nothing
  | part (extraction : Extraction)
  | join (first second : Assembly)

namespace Assembly

/--
The parts in their order.
-/
def parts : Assembly → List Extraction
  | nothing => []
  | part extraction => [extraction]
  | join first second => first.parts ++ second.parts

def whole : Assembly → Extraction
  | nothing => {}
  | part extraction => extraction
  | join first second => first.whole ++ second.whole

theorem whole_eq_foldl (assembly : Assembly) :
    assembly.whole = assembly.parts.foldl (· ++ ·) {} := by
  induction assembly with
  | nothing => rfl
  | part extraction => exact (nothing_append extraction).symm
  | join first second hfirst hsecond =>
    rw [whole, parts, List.foldl_append, foldl_append, hfirst, hsecond]

end Assembly

theorem ofValue_flatten {lists : List (List Value)} {parts : List Extraction}
    (h : lists.map (fun records => ofValue (.array records)) = parts.map .ok) :
    ofValue (.array lists.flatten) = .ok (parts.foldl (· ++ ·) {}) := by
  induction lists generalizing parts with
  | nil =>
    have hparts : parts = [] := by simpa using h.symm
    rw [hparts]
    rfl
  | cons records lists ih =>
    cases parts with
    | nil => contradiction
    | cons part parts =>
      simp only [List.map_cons, List.cons.injEq] at h
      rw [List.flatten_cons, List.foldl_cons, nothing_append, foldl_append]
      exact ofValue_append h.1 (ih h.2)

theorem ofPayload_eq_ok_iff {payload : String} {extraction : Extraction} :
    ofPayload payload = .ok extraction ↔ ∃ records,
      Payload.value payload = .ok (.array records) ∧ ofValue (.array records) = .ok extraction := by
  unfold ofPayload
  simp only [bind_eq_ok_iff, mapError_eq_ok_iff]
  constructor
  · rintro ⟨value, hvalue, hextraction⟩
    obtain ⟨records, _, rfl, -, -⟩ := ofValue_eq_ok_iff.mp hextraction
    exact ⟨records, hvalue, hextraction⟩
  · rintro ⟨records, hvalue, hextraction⟩
    exact ⟨_, hvalue, hextraction⟩

theorem ofPayloads_eq_ok_iff {payloads : List String} {extraction : Extraction} :
    ofPayloads payloads = .ok extraction ↔
      ∃ parts : List Extraction, payloads.map ofPayload = parts.map .ok ∧
        parts.foldl (· ++ ·) {} = extraction := by
  unfold ofPayloads
  simp only [bind_eq_ok_iff, mapM_eq_ok_iff, pure, Except.pure, Except.ok.injEq]

theorem map_ofPayload_of_values {payloads : List String} {lists : List (List Value)}
    {parts : List Extraction}
    (hpayloads : payloads.map Payload.value = lists.map fun records => .ok (.array records))
    (hlists : lists.map (fun records => ofValue (.array records)) = parts.map .ok) :
    payloads.map ofPayload = parts.map .ok := by
  induction payloads generalizing lists parts with
  | nil =>
    have hnil : lists = [] := by simpa using hpayloads.symm
    subst hnil
    simpa using hlists
  | cons payload payloads ih =>
    cases lists with
    | nil => contradiction
    | cons records lists =>
      cases parts with
      | nil => contradiction
      | cons part parts =>
        simp only [List.map_cons, List.cons.injEq] at hpayloads hlists
        rw [List.map_cons, List.map_cons, ih hpayloads.2 hlists.2,
          ofPayload_eq_ok_iff.mpr ⟨records, hpayloads.1, hlists.1⟩]

theorem exists_lists_of_map_ofPayload {payloads : List String} {parts : List Extraction}
    (h : payloads.map ofPayload = parts.map .ok) :
    ∃ lists : List (List Value),
      payloads.map Payload.value = lists.map (fun records => .ok (.array records)) ∧
        lists.map (fun records => ofValue (.array records)) = parts.map .ok := by
  induction payloads generalizing parts with
  | nil => exact ⟨[], rfl, by simpa using h⟩
  | cons payload payloads ih =>
    cases parts with
    | nil => contradiction
    | cons part parts =>
      simp only [List.map_cons, List.cons.injEq] at h
      obtain ⟨records, hvalue, hpart⟩ := ofPayload_eq_ok_iff.mp h.1
      obtain ⟨lists, hvalues, hparts⟩ := ih h.2
      exact ⟨records :: lists, by simp [hvalue, hvalues], by simp [hpart, hparts]⟩

end Extraction

end SymbolSearch
