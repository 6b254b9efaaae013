import Mathlib.Control.Monad.Basic
import SymbolSearch.Catalog
import SymbolSearch.Proofs.Directory.Chunk

/-!
This module contains the proof that an index may be cut into chunks anywhere between two records: the
chunks in their order load like one payload that holds the records of all of them.
-/

namespace SymbolSearch

open Literal (Value)

namespace Catalog

theorem loadPayload_eq_ok_iff {catalog loaded : Catalog} {payload : String} {report : Report} :
    catalog.loadPayload payload = (.ok report, loaded) ↔ ∃ extraction,
      Extraction.ofPayload payload = .ok extraction ∧
        catalog.installExtraction extraction 1 = (report, loaded) := by
  unfold loadPayload
  cases Extraction.ofPayload payload <;> simp [Prod.ext_iff]

theorem loadDirectory_eq_ok_iff {catalog loaded : Catalog} {directory : Directory}
    {category : String} {report : Report} :
    catalog.loadDirectory directory category = (.ok report, loaded) ↔ ∃ extraction files,
      directory.extract category = .ok (extraction, files) ∧
        catalog.installExtraction extraction files = (report, loaded) := by
  unfold loadDirectory
  rcases directory.extract category with _ | ⟨extraction, files⟩ <;> simp [Prod.ext_iff, and_assoc]

/-- Records may be extracted in any number of parts, and the parts put together in any way that keeps
their order. Hence chunks load as one payload with the records of all of them does: the index is built
from all entries at once, and the report counts what all parts hold. -/
theorem loadDirectory_of_chunks {lists : List (List Value)} {assembly : Extraction.Assembly}
    (hparts : lists.map (fun records => Extraction.ofValue (.array records)) =
      assembly.parts.map .ok) :
    Extraction.ofValue (.array lists.flatten) = .ok assembly.whole ∧
      (∀ part : Extraction, {} ++ part = part ∧ part ++ {} = part) ∧
      ∀ {directory : Directory} {category : String} {chunks : List Chunk} {payloads : List String}
        {payload : String}, directory.chunks category = .ok chunks → chunks ≠ [] →
        chunks.map Chunk.text = payloads.map .ok →
        payloads.map Payload.value = lists.map (fun records => .ok (.array records)) →
        Payload.value payload = .ok (.array lists.flatten) →
        ∀ catalog : Catalog, ∃ report loaded,
          catalog.loadPayload payload = (.ok report, loaded) ∧
          catalog.loadDirectory directory category =
            (.ok { report with files := chunks.length }, loaded) ∧
          let index := Index.ofEntries assembly.whole.entries
          loaded.index? = some index ∧
          report = {
            files := 1
            records := assembly.whole.records
            entries := index.entryCount
            keys := index.size
            warnings := assembly.whole.warnings.length + index.rejections.length
          } := by
  have hwhole : Extraction.ofValue (.array lists.flatten) = .ok assembly.whole := by
    rw [assembly.whole_eq_foldl]
    exact Extraction.ofValue_flatten hparts
  refine ⟨hwhole, ?_, ?_⟩
  · intro part
    exact ⟨part.nothing_append, part.append_nothing⟩
  · intro directory category chunks payloads payload hchunks hne htexts hvalues hvalue catalog
    have hpayload : Extraction.ofPayload payload = .ok assembly.whole :=
      Extraction.ofPayload_eq_ok_iff.mpr ⟨_, hvalue, hwhole⟩
    obtain ⟨texts, hread, rfl⟩ := Directory.read_of_texts hchunks hne htexts
    have hextract : directory.extract category = .ok (assembly.whole, chunks.length) := by
      rw [Directory.extract_eq_ok_iff]
      refine ⟨texts, hread, ?_, ?_⟩
      · rw [Extraction.ofPayloads_eq_ok_iff]
        exact ⟨_, Extraction.map_ofPayload_of_values hvalues hparts, assembly.whole_eq_foldl.symm⟩
      · simpa using congrArg List.length htexts.symm
    refine ⟨(catalog.installExtraction assembly.whole 1).1, _,
      loadPayload_eq_ok_iff.mpr ⟨_, hpayload, rfl⟩, ?_, rfl, rfl⟩
    exact loadDirectory_eq_ok_iff.mpr ⟨_, _, hextract, rfl⟩

end Catalog

namespace TwoChunks

/--
Two chunks that are not listed in the order of their numbers.
-/
def directory : Directory where
  path := "search"
  files? := some
    [
      ⟨"all_a.js".toUTF8, .contents "[['b',['b','u']],['c',[7]]]".toUTF8⟩,
      ⟨"all_9.js".toUTF8, .contents "var x=[['a',['a',['t'],5]]]".toUTF8⟩
    ]

def chunks : List Chunk :=
  [
    ⟨9, "all_9.js", .contents "var x=[['a',['a',['t'],5]]]".toUTF8⟩,
    ⟨10, "all_a.js", .contents "[['b',['b','u']],['c',[7]]]".toUTF8⟩
  ]

def payloads : List String :=
  ["var x=[['a',['a',['t'],5]]]", "[['b',['b','u']],['c',[7]]]"]

def lists : List (List Value) :=
  [
    [.array [.string "a", .array [.string "a", .array [.string "t"], .integer 5]]],
    [
      .array [.string "b", .array [.string "b", .string "u"]],
      .array [.string "c", .array [.integer 7]]
    ]
  ]

def assembly : Extraction.Assembly :=
  .join .nothing (.join
    (.part {
      entries := [⟨"a", "", "t", none⟩]
      warnings := [⟨0, some 1, .anchor .number⟩]
      records := 1
    })
    (.part {
      entries := [⟨"b", "", "u", none⟩]
      warnings := [⟨1, none, .label (some .number)⟩]
      records := 2
    }))

theorem chunks_directory : directory.chunks "all" = .ok chunks := by
  have hcategory : isCategory "all" := by decide +kernel
  have hfirst : Chunk.number? "all" "all_a.js" = some 10 := by decide +kernel
  have hsecond : Chunk.number? "all" "all_9.js" = some 9 := by decide +kernel
  unfold Directory.chunks
  rw [if_pos hcategory]
  simp only [directory, List.filterMap_cons, List.filterMap_nil, Chunk.ofFile?_toUTF8, hfirst,
    hsecond, Option.map_some]
  rw [Chunk.mergeSort_pair (by simp [Chunk.precedes]), chunks]

theorem map_text_chunks : chunks.map Chunk.text = payloads.map .ok := by
  decide +kernel

theorem map_value_payloads :
    payloads.map Payload.value = lists.map fun records => .ok (.array records) := by
  decide +kernel

theorem map_ofValue_lists :
    lists.map (fun records => Extraction.ofValue (.array records)) = assembly.parts.map .ok := by
  decide +kernel

end TwoChunks

namespace Catalog

theorem loadDirectory_twoChunks :
    ∃ report loaded,
      ({} : Catalog).loadPayload "[['a',['a',['t'],5]],['b',['b','u']],['c',[7]]]" =
        (.ok report, loaded) ∧
      ({} : Catalog).loadDirectory TwoChunks.directory "all" =
        (.ok { report with files := 2 }, loaded) ∧
      loaded.index? = some (.ofEntries [⟨"a", "", "t", none⟩, ⟨"b", "", "u", none⟩]) ∧
      report.records = 3 ∧ report.entries = 2 ∧ report.warnings = 2 := by
  have hvalue : Payload.value "[['a',['a',['t'],5]],['b',['b','u']],['c',[7]]]" =
      .ok (.array TwoChunks.lists.flatten) := by
    decide +kernel
  obtain ⟨report, loaded, hpayload, hdirectory, hindex, hreport⟩ :=
    (loadDirectory_of_chunks TwoChunks.map_ofValue_lists).2.2 TwoChunks.chunks_directory
      (List.cons_ne_nil _ _) TwoChunks.map_text_chunks TwoChunks.map_value_payloads hvalue {}
  refine ⟨report, loaded, hpayload, hdirectory, hindex, ?_⟩
  rw [hreport]
  decide +kernel

end Catalog

end SymbolSearch
