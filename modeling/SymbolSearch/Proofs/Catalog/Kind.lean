import SymbolSearch.Proofs.Catalog.Search
import SymbolSearch.Proofs.Extraction.Append
import SymbolSearch.Proofs.Link

/-!
This module contains the kinds that entries have after a payload was loaded. A kind is inferred before
the blanks around a url are removed, so it is not always the one that the url of the entry implies.
-/

namespace SymbolSearch

open Literal (Value)

namespace Slot

theorem kind_of_entryOfFields {label : String} {fields : List Value} {entry : Entry}
    (h : entryOfFields label fields = .ok entry) : entry.kind = Kind.infer? entry.url entry.scope := by
  unfold entryOfFields at h
  split at h
  · obtain ⟨scope, -, h⟩ := bind_eq_ok_iff.mp h
    cases h
    rfl
  · contradiction

theorem kind_of_entryOfAnchor {label : String} {anchor : Value} {entry : Entry}
    (h : entryOfAnchor label anchor = .ok entry) : entry.kind = Kind.infer? entry.url entry.scope := by
  unfold entryOfAnchor at h
  split at h
  · exact kind_of_entryOfFields h
  · contradiction

theorem ofEntry_eq_entry {anchor : Nat} {outcome : Except Defect Entry} {value : Entry}
    (h : ofEntry anchor outcome = entry value) : outcome = .ok value := by
  unfold ofEntry at h
  split at h
  · cases h
    rfl
  · contradiction

theorem kind_of_mem_ofSymbol {symbol : List Value} {value : Entry} (h : entry value ∈ ofSymbol symbol) :
    value.kind = Kind.infer? value.url value.scope := by
  unfold ofSymbol at h
  split at h
  · simp at h
  · dsimp only at h
    split at h
    · simp at h
    · rw [List.mem_singleton] at h
      exact kind_of_entryOfFields (ofEntry_eq_entry h.symm)
    · obtain ⟨⟨anchor, i⟩, -, h⟩ := List.mem_map.mp h
      exact kind_of_entryOfAnchor (ofEntry_eq_entry h)
  · simp at h

end Slot

theorem Extraction.kind_of_ofPayload {payload : String} {extraction : Extraction}
    (h : ofPayload payload = .ok extraction) {entry : Entry} (hmem : entry ∈ extraction.entries) :
    entry.kind = Kind.infer? entry.url entry.scope := by
  obtain ⟨records, -, hvalue⟩ := ofPayload_eq_ok_iff.mp h
  obtain ⟨_, symbols, -, -, rfl⟩ := ofValue_eq_ok_iff.mp hvalue
  obtain ⟨slots, hslots, hmem⟩ := List.mem_flatMap.mp hmem
  obtain ⟨symbol, -, rfl⟩ := List.mem_map.mp hslots
  obtain ⟨slot, hslot, hentry⟩ := List.mem_filterMap.mp hmem
  cases slot with
  | entry value =>
    cases hentry
    exact Slot.kind_of_mem_ofSymbol hslot
  | skipped => contradiction

namespace Catalog

/--
An entry of the index has the kind that its url implies together with the blanks that stood around it
in the payload. It is the kind that the url itself implies unless these blanks mislead.
-/
theorem kind_of_loadPayload {catalog loaded : Catalog} {payload : String} {report : Report}
    (h : catalog.loadPayload payload = (.ok report, loaded)) :
    ∃ extraction index, Extraction.ofPayload payload = .ok extraction ∧ loaded.index? = some index ∧
      ∀ group ∈ index.groups.toList, ∀ entry ∈ group.entries,
        ∃ written ∈ extraction.entries, ∃ front back : List Char,
          written.held = entry ∧
          front.all Text.isBlank ∧ back.all Text.isBlank ∧
          written.url.toList = front ++ (entry.url.toList ++ back) ∧
          entry.kind = Kind.infer? written.url entry.scope ∧
          (entry.kind = Kind.infer? entry.url entry.scope ↔
            ¬Link.Misleads front back entry.url entry.scope) := by
  obtain ⟨extraction, hextraction, -, hindex⟩ := exists_extraction_of_loadPayload h
  refine ⟨extraction, _, hextraction, hindex, ?_⟩
  intro group hgroup entry hentry
  rw [Index.entries_of_mem_groups_ofEntries hgroup, usableEntries, ← Entry.trim_eq_held] at hentry
  obtain ⟨written, hwritten, rfl⟩ := List.mem_map.mp hentry
  have hmem := (List.mem_filter.mp hwritten).1
  obtain ⟨front, back, hfront, hback, hurl⟩ := Text.exists_blanks_around_trim written.url.toList
  have htrimmed : written.url.toList = front ++ (written.trim.url.toList ++ back) := by
    rw [Entry.url_trim, Text.trimmed, String.toList_ofList]
    exact hurl
  have hkind : written.trim.kind = Kind.infer? written.url written.trim.scope :=
    (Extraction.kind_of_ofPayload hextraction hmem).trans (Link.infer?_trimmed_scope _ _).symm
  refine ⟨written, hmem, front, back, rfl, hfront, hback, htrimmed, hkind, ?_⟩
  rw [hkind]
  exact Link.infer?_padded_iff hfront hback htrimmed _

theorem exists_held_of_ofPayload (catalog : Catalog) {payload : String} {extraction : Extraction}
    (h : Extraction.ofPayload payload = .ok extraction) {entry : Entry}
    (hmem : entry ∈ extraction.entries) (husable : entry.Usable) :
    ∃ report loaded index, catalog.loadPayload payload = (.ok report, loaded) ∧
      loaded.index? = some index ∧ ∃ group ∈ index.groups.toList, entry.held ∈ group.entries := by
  obtain ⟨group, hgroup, -, hentry⟩ := Index.exists_group_of_usable hmem husable
  let index := Index.ofEntries extraction.entries
  refine ⟨.of extraction 1 index, catalog.install index, index, ?_, rfl, group, hgroup, hentry⟩
  unfold loadPayload
  rw [h]
  rfl

theorem kind_of_loadPayload_anchor :
    ∃ report loaded index,
      ({} : Catalog).loadPayload "[['b',['b',[' a.html#b ',1,' f() ']]]]" = (.ok report, loaded) ∧
      loaded.index? = some index ∧ ∃ group ∈ index.groups.toList, ∃ entry ∈ group.entries,
        entry.url = "a.html#b" ∧ entry.kind = some .function ∧
        entry.kind = Kind.infer? entry.url entry.scope := by
  have hextraction : Extraction.ofPayload "[['b',['b',[' a.html#b ',1,' f() ']]]]" =
      .ok { entries := [⟨"b", " f() ", " a.html#b ", some .function⟩], records := 1 } :=
    Extraction.ofPayload_eq_ok (by decide +kernel)
  obtain ⟨report, loaded, index, hload, hindex, group, hgroup, hentry⟩ :=
    exists_held_of_ofPayload {} hextraction (List.mem_singleton_self _) (by decide +kernel)
  obtain ⟨_, _, -, hsame, hkind⟩ := kind_of_loadPayload hload
  rw [hindex] at hsame
  cases hsame
  obtain ⟨written, -, front, back, -, -, -, -, -, hkind⟩ := hkind group hgroup _ hentry
  refine ⟨report, loaded, index, hload, hindex, group, hgroup, _, hentry, by decide +kernel, rfl, ?_⟩
  apply hkind.mpr
  rintro (⟨-, hmem, -⟩ | ⟨-, -, hanchor, -⟩ | ⟨-, -, hname⟩ | ⟨-, hpath, -⟩)
  · exact hmem (by decide +kernel)
  · exact absurd hanchor (by decide +kernel)
  · exact absurd hname (by decide +kernel)
  · exact absurd hpath (by decide +kernel)

/-- The extension of a page is hidden by the blank behind it. -/
theorem kind_of_loadPayload_page :
    ∃ report loaded index,
      ({} : Catalog).loadPayload "[['p_0',['P',['page.html ',1,'']]]]" = (.ok report, loaded) ∧
      loaded.index? = some index ∧ ∃ group ∈ index.groups.toList, ∃ entry ∈ group.entries,
        entry.kind = none ∧ Kind.infer? entry.url entry.scope = some .page := by
  have hextraction : Extraction.ofPayload "[['p_0',['P',['page.html ',1,'']]]]" =
      .ok { entries := [⟨"P", "", "page.html ", none⟩], records := 1 } :=
    Extraction.ofPayload_eq_ok (by decide +kernel)
  obtain ⟨report, loaded, index, hload, hindex, group, hgroup, hentry⟩ :=
    exists_held_of_ofPayload {} hextraction (List.mem_singleton_self _) (by decide +kernel)
  exact ⟨report, loaded, index, hload, hindex, group, hgroup, _, hentry, rfl, by decide +kernel⟩

end Catalog

end SymbolSearch
