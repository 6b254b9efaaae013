import Mathlib.Data.Finset.Card
import SymbolSearch.Proofs.Catalog.Load
import SymbolSearch.Proofs.Extraction.Slot
import SymbolSearch.Proofs.Index.Build

/-!
This module contains the proof that the report of a load adds up: what was loaded and what was left
out make, together, all that the payloads have slots for.
-/

namespace SymbolSearch

open Literal (Value)

namespace Index

theorem entryCount_add_length_rejections (entries : List Entry) :
    (ofEntries entries).entryCount + (ofEntries entries).rejections.length = entries.length := by
  rw [entryCount_ofEntries, length_rejections_ofEntries, ← List.countP_eq_length_filter]
  simpa using (List.length_eq_countP_add_countP (fun entry : Entry => entry.Usable)).symm

theorem size_ofEntries (entries : List Entry) :
    (ofEntries entries).size =
      ((entries.filter (·.Usable)).map (key ·.label)).toFinset.card := by
  have hnodup : (ofEntries entries).keys.Nodup := by
    unfold keys
    rw [List.Nodup, List.pairwise_map]
    apply (ofEntries entries).ascending.imp
    intro first second hlt
    exact ne_of_lt hlt
  have hkeys : (ofEntries entries).keys.toFinset =
      ((entries.filter (·.Usable)).map (key ·.label)).toFinset := by
    ext wanted
    simp [mem_keys_ofEntries_iff, and_assoc]
  rw [← hkeys, List.toFinset_card_of_nodup hnodup]
  simp [keys, size]

end Index

/--
Whether a report accounts for all slots of the records from which something was extracted.
-/
structure Report.Accounts (report : Report) (extraction : Extraction) (records : List Value) :
    Prop where
  extracted : extraction.entries.length + extraction.warnings.length =
    (records.map slotsOfRecord).sum
  reported : report.entries + report.warnings = (records.map slotsOfRecord).sum
  records_eq : report.records = records.length
  keys_eq : report.keys =
    ((extraction.entries.filter (·.Usable)).map (key ·.label)).toFinset.card

theorem Report.accounts_of {records : List Value} {extraction : Extraction}
    (h : Extraction.ofValue (.array records) = .ok extraction) (files : Nat) :
    (Report.of extraction files (.ofEntries extraction.entries)).Accounts extraction records := by
  obtain ⟨hslots, hrecords⟩ := Extraction.slots_of_ofValue h
  constructor
  case extracted => exact hslots
  case reported =>
    have := Index.entryCount_add_length_rejections extraction.entries
    simp only [Report.of]
    omega
  case records_eq => exact hrecords
  case keys_eq => exact Index.size_ofEntries extraction.entries

namespace Catalog

/-- Whether a payload or all chunks of a category were loaded, nothing in them was lost silently and
nothing was counted twice. -/
theorem report_accounts :
    (∀ {catalog loaded : Catalog} {payload : String} {report : Report},
      catalog.loadPayload payload = (.ok report, loaded) → ∃ records extraction,
        Payload.value payload = .ok (.array records) ∧
        Extraction.ofPayload payload = .ok extraction ∧
        report.Accounts extraction records) ∧
    ∀ {catalog loaded : Catalog} {directory : Directory} {category : String} {report : Report},
      catalog.loadDirectory directory category = (.ok report, loaded) →
        ∃ (texts : List ChunkText) (lists : List (List Value)) (extraction : Extraction),
          directory.read category = .ok texts ∧
          texts.map (Payload.value ·.text) = lists.map (fun records => .ok (.array records)) ∧
          directory.extract category = .ok (extraction, texts.length) ∧
          report.Accounts extraction lists.flatten := by
  constructor
  · intro catalog loaded payload report h
    obtain ⟨extraction, hextraction, hinstall⟩ := loadPayload_eq_ok_iff.mp h
    obtain ⟨records, hvalue, hrecords⟩ := Extraction.ofPayload_eq_ok_iff.mp hextraction
    cases hinstall
    exact ⟨records, extraction, hvalue, hextraction, Report.accounts_of hrecords 1⟩
  · intro catalog loaded directory category report h
    obtain ⟨extraction, files, hextract, hinstall⟩ := loadDirectory_eq_ok_iff.mp h
    obtain ⟨texts, hread, hpayloads, rfl⟩ := Directory.extract_eq_ok_iff.mp hextract
    obtain ⟨parts, hparts, rfl⟩ := Extraction.ofPayloads_eq_ok_iff.mp hpayloads
    obtain ⟨lists, hvalues, hlists⟩ := Extraction.exists_lists_of_map_ofPayload hparts
    rw [List.map_map] at hvalues
    cases hinstall
    exact ⟨texts, lists, _, hread, hvalues, hextract,
      Report.accounts_of (Extraction.ofValue_flatten hlists) texts.length⟩

end Catalog

namespace SpoiledPayload

/--
A payload with one symbol for each way in which a slot ends.
-/
def text : String :=
  "[['',['A',['u'],5]],['',['a ','v']],['',['c']],['',[]],['',[' ',['w']]]]"

def records : List Value :=
  [
    .array [.string "", .array [.string "A", .array [.string "u"], .integer 5]],
    .array [.string "", .array [.string "a ", .string "v"]],
    .array [.string "", .array [.string "c"]],
    .array [.string "", .array []],
    .array [.string "", .array [.string " ", .array [.string "w"]]]
  ]

def extraction : Extraction where
  entries := [⟨"A", "", "u", none⟩, ⟨"a ", "", "v", none⟩, ⟨" ", "", "w", none⟩]
  warnings := [⟨0, some 1, .anchor .number⟩, ⟨2, none, .noAnchors "c"⟩, ⟨3, none, .label none⟩]
  records := 5

theorem value_spoiled : Payload.value text = .ok (.array records) := by
  decide +kernel

theorem ofPayload_spoiled : Extraction.ofPayload text = .ok extraction := by
  decide +kernel

end SpoiledPayload

namespace TwoChunks

theorem read_directory : ∃ texts, directory.read "all" = .ok texts ∧ texts.map (·.text) = payloads :=
  Directory.read_of_texts chunks_directory (List.cons_ne_nil _ _) map_text_chunks

theorem extract_directory : directory.extract "all" = .ok (assembly.whole, 2) := by
  obtain ⟨texts, hread, htexts⟩ := read_directory
  refine Directory.extract_eq_ok_iff.mpr ⟨texts, hread, ?_, ?_⟩
  · rw [htexts]
    decide +kernel
  · simpa [payloads] using congrArg List.length htexts

end TwoChunks

namespace Catalog

theorem report_accounts_spoiled :
    (∃ report loaded,
      ({} : Catalog).loadPayload SpoiledPayload.text = (.ok report, loaded) ∧
      report.records = 5 ∧ report.entries + report.warnings = 6 ∧ report.keys = 1) ∧
    ∃ report loaded,
      ({} : Catalog).loadDirectory TwoChunks.directory "all" = (.ok report, loaded) ∧
      report.records = 3 ∧ report.entries + report.warnings = 4 ∧ report.keys = 2 := by
  constructor
  · obtain ⟨report, loaded, hload⟩ :
        ∃ report loaded, ({} : Catalog).loadPayload SpoiledPayload.text = (.ok report, loaded) :=
      ⟨_, _, loadPayload_eq_ok_iff.mpr ⟨_, SpoiledPayload.ofPayload_spoiled, rfl⟩⟩
    refine ⟨report, loaded, hload, ?_⟩
    obtain ⟨_, _, hvalue, hextraction, haccounts⟩ := report_accounts.1 hload
    rw [SpoiledPayload.value_spoiled] at hvalue
    rw [SpoiledPayload.ofPayload_spoiled] at hextraction
    cases hvalue
    cases hextraction
    have hslots : (SpoiledPayload.records.map slotsOfRecord).sum = 6 := by decide
    refine ⟨haccounts.records_eq, haccounts.reported.trans hslots, haccounts.keys_eq.trans ?_⟩
    decide +kernel
  · obtain ⟨report, loaded, hload⟩ :
        ∃ report loaded,
          ({} : Catalog).loadDirectory TwoChunks.directory "all" = (.ok report, loaded) :=
      ⟨_, _, loadDirectory_eq_ok_iff.mpr ⟨_, _, TwoChunks.extract_directory, rfl⟩⟩
    refine ⟨report, loaded, hload, ?_⟩
    obtain ⟨texts, lists, _, hread, hvalues, hextraction, haccounts⟩ := report_accounts.2 hload
    obtain ⟨texts, hread', htexts⟩ := TwoChunks.read_directory
    rw [hread'] at hread
    rw [TwoChunks.extract_directory] at hextraction
    cases hread
    obtain ⟨rfl, -⟩ := Prod.mk.inj (Except.ok.inj hextraction)
    have hlists : lists = TwoChunks.lists := by
      rw [← List.map_inj_right (fun _ _ h => Value.array.inj (Except.ok.inj h)), ← hvalues,
        ← TwoChunks.map_value_payloads, ← htexts, List.map_map]
      rfl
    rw [hlists] at haccounts
    have hslots : (TwoChunks.lists.flatten.map slotsOfRecord).sum = 4 := by decide
    refine ⟨haccounts.records_eq, haccounts.reported.trans hslots, haccounts.keys_eq.trans ?_⟩
    decide +kernel

end Catalog

end SymbolSearch
