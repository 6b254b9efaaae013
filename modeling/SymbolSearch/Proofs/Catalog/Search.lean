import Mathlib
import SymbolSearch.Catalog
import SymbolSearch.Proofs.Index.Lookup
import SymbolSearch.Proofs.Payload
import SymbolSearch.Proofs.Search

/-!
This module contains the proof that whatever was loaded can be found: a search that leaves nothing out
shows an entry exactly if the key of its label starts with the key of the query.
-/

namespace SymbolSearch

/--
A group that is shown as a whole.
-/
def Match.whole (group : Group) : Match where
  key := group.key
  label := (group.entries.map (·.label)).headD ""
  entries := group.entries
  omitted := 0

theorem Match.ofGroup?_eq_whole {config : Config} {group : Group} (hkinds : config.kinds = none)
    (hne : group.entries ≠ []) (hlength : group.entries.length ≤ config.maxEntriesPerGroup) :
    ofGroup? config group = some (whole group) := by
  have hall : group.entries.filter (config.accepts ·.kind) = group.entries := by
    apply List.filter_eq_self.mpr
    intro entry _
    simp [Config.accepts, hkinds]
  rw [ofGroup?_eq, hall, if_neg hne, List.take_of_length_le hlength, Nat.sub_eq_zero_of_le hlength]
  rfl

namespace Index

theorem groups_search_of_le {entries : List Entry} {config : Config} (hkinds : config.kinds = none)
    (hgroups : (ofEntries entries).entryCount ≤ config.maxGroups)
    (hentries : (ofEntries entries).entryCount ≤ config.maxEntriesPerGroup) (query : String) :
    ((ofEntries entries).search config query).groups =
      ((ofEntries entries).scan (key query)).map Match.whole := by
  have hshown : ((ofEntries entries).cursor (key query)).toList.filterMap (Match.ofGroup? config) =
      ((ofEntries entries).scan (key query)).map Match.whole := by
    rw [toList_cursor, ← List.filterMap_eq_map]
    apply List.filterMap_congr
    intro group hmem
    have hmem := (mem_scan_iff.mp hmem).1
    have hlength := length_entries_le_entryCount hmem
    rw [groups_ofEntries] at hmem
    exact Match.ofGroup?_eq_whole hkinds (Group.entries_ne_nil_of_mem_ofEntries hmem) (by omega)
  unfold search
  dsimp only
  rw [collect_eq, hshown, List.reverse_nil, List.nil_append, List.take_of_length_le]
  rw [List.length_map]
  have := length_scan_le_entryCount entries (key query)
  omega

end Index

/--
Whether an entry is shown, without the blanks around its texts and in the group with its key.
-/
def Results.Shows (results : Results) (entry : Entry) : Prop :=
  ∃ group ∈ results.groups, group.key = key entry.label ∧ entry.held ∈ group.entries

namespace Index

theorem exists_group_of_usable {entries : List Entry} {entry : Entry} (h : entry ∈ entries)
    (husable : entry.Usable) :
    ∃ group ∈ (ofEntries entries).groups.toList,
      group.key = key entry.label ∧ entry.held ∈ group.entries := by
  have hkey : key entry.label ∈ (ofEntries entries).keys :=
    mem_keys_ofEntries_iff.mpr ⟨entry, h, husable, rfl⟩
  obtain ⟨group, hgroup, hkey⟩ := List.mem_map.mp hkey
  refine ⟨group, hgroup, hkey, ?_⟩
  rw [entries_of_mem_groups_ofEntries hgroup]
  apply List.mem_map_of_mem
  simp [h, husable, hkey]

section

variable {entries : List Entry} {config : Config} (hkinds : config.kinds = none)
  (hgroups : (ofEntries entries).entryCount ≤ config.maxGroups)
  (hentries : (ofEntries entries).entryCount ≤ config.maxEntriesPerGroup)

include hkinds hgroups hentries

theorem shows_search_iff {entry : Entry} (h : entry ∈ entries) (husable : entry.Usable)
    (query : String) :
    ((ofEntries entries).search config query).Shows entry ↔
      key query ≠ "" ∧ (key query).toList <+: (key entry.label).toList := by
  unfold Results.Shows
  rw [groups_search_of_le hkinds hgroups hentries]
  constructor
  · rintro ⟨_, hshown, hkey, -⟩
    obtain ⟨group, hscan, rfl⟩ := List.mem_map.mp hshown
    have hstarts := (mem_scan_iff.mp hscan).2
    rwa [show group.key = key entry.label from hkey] at hstarts
  · intro hstarts
    obtain ⟨group, hgroup, hkey, hmem⟩ := exists_group_of_usable h husable
    rw [← hkey] at hstarts
    have hscan : group ∈ (ofEntries entries).scan (key query) := mem_scan_iff.mpr ⟨hgroup, hstarts⟩
    exact ⟨Match.whole group, List.mem_map_of_mem hscan, hkey, hmem⟩

theorem entries_of_mem_groups_search {query : String} {shown : Match}
    (h : shown ∈ ((ofEntries entries).search config query).groups) :
    shown.entries = usableEntries entries shown.key := by
  rw [groups_search_of_le hkinds hgroups hentries] at h
  obtain ⟨group, hscan, rfl⟩ := List.mem_map.mp h
  exact entries_of_mem_groups_ofEntries (mem_scan_iff.mp hscan).1

theorem pairwise_keys_search (query : String) :
    ((ofEntries entries).search config query).keys.Pairwise (· < ·) := by
  unfold Results.keys
  rw [groups_search_of_le hkinds hgroups hentries, List.map_map, List.pairwise_map]
  apply pairwise_scan

end

end Index

namespace Catalog

theorem exists_extraction_of_loadPayload {catalog loaded : Catalog} {payload : String}
    {report : Report} (h : catalog.loadPayload payload = (.ok report, loaded)) :
    ∃ extraction, Extraction.ofPayload payload = .ok extraction ∧
      report.entries = (Index.ofEntries extraction.entries).entryCount ∧
      loaded.index? = some (Index.ofEntries extraction.entries) := by
  unfold loadPayload at h
  split at h
  · cases h
  · next extraction hextraction =>
    cases h
    exact ⟨extraction, hextraction, rfl, rfl⟩

/-- After a payload was loaded, a search without any limit shows each of its usable entries under
exactly the queries that its label answers to, and the entries of a group in the order of the
payload. Among these queries is the front of the label, however short, as long as it is not blank. -/
theorem search_of_loadPayload {catalog loaded : Catalog} {payload : String} {report : Report}
    (hload : catalog.loadPayload payload = (.ok report, loaded)) (config : Config)
    (hkinds : config.kinds = none) (hgroups : report.entries ≤ config.maxGroups)
    (hentries : report.entries ≤ config.maxEntriesPerGroup) :
    ∃ extraction, Extraction.ofPayload payload = .ok extraction ∧
      ∀ query, ∃ results, (loaded.configure config).search query = .ok results ∧
        results.keys.Pairwise (· < ·) ∧
        (∀ group ∈ results.groups,
          group.entries = usableEntries extraction.entries group.key) ∧
        ∀ entry ∈ extraction.entries, entry.Usable →
          (results.Shows entry ↔
            key query ≠ "" ∧ (key query).toList <+: (key entry.label).toList) ∧
          (query.toList <+: entry.label.toList → (∃ c ∈ query.toList, Text.isBlank c = false) →
            results.Shows entry) := by
  obtain ⟨extraction, hextraction, hcount, hindex⟩ := exists_extraction_of_loadPayload hload
  rw [hcount] at hgroups hentries
  refine ⟨extraction, hextraction, ?_⟩
  intro query
  refine ⟨(Index.ofEntries extraction.entries).search config query, ?_, ?_, ?_, ?_⟩
  · simp [search, configure, hindex]
  · exact Index.pairwise_keys_search hkinds hgroups hentries query
  · intro group hmem
    exact Index.entries_of_mem_groups_search hkinds hgroups hentries hmem
  · intro entry hmem husable
    have hshows := Index.shows_search_iff hkinds hgroups hentries hmem husable query
    refine ⟨hshows, ?_⟩
    rintro hfront ⟨c, hc, hblank⟩
    apply hshows.mpr
    refine ⟨?_, key_prefix_key hfront⟩
    intro hempty
    rw [key_eq_empty_iff.mp hempty c hc] at hblank
    contradiction

theorem shows_packBit :
    ∃ extraction report loaded results,
      Extraction.ofPayload "[['p',[' Pack  Bit&lt;',['a.html#b',1,'']]]]" = .ok extraction ∧
      ({} : Catalog).loadPayload "[['p',[' Pack  Bit&lt;',['a.html#b',1,'']]]]" =
        (.ok report, loaded) ∧
      (loaded.configure { maxGroups := 1, maxEntriesPerGroup := 1 }).search " Pack  B" = .ok results ∧
      results.Shows ⟨" Pack  Bit<", "", "a.html#b", some .member⟩ := by
  obtain ⟨extraction, hextraction, hentries⟩ :
      ∃ extraction, Extraction.ofPayload "[['p',[' Pack  Bit&lt;',['a.html#b',1,'']]]]" =
          .ok extraction ∧
        extraction.entries = [⟨" Pack  Bit<", "", "a.html#b", some .member⟩] := by
    refine ⟨{ entries := [⟨" Pack  Bit<", "", "a.html#b", some .member⟩], records := 1 }, ?_, rfl⟩
    apply Extraction.ofPayload_eq_ok
    decide +kernel
  have hload : ({} : Catalog).loadPayload "[['p',[' Pack  Bit&lt;',['a.html#b',1,'']]]]" =
      (({} : Catalog).installExtraction extraction 1).map .ok id := by
    unfold loadPayload
    rw [hextraction]
    rfl
  have hcount : (Index.ofEntries extraction.entries).entryCount ≤ 1 := by
    rw [Index.entryCount_ofEntries, hentries]
    apply List.length_filter_le
  obtain ⟨found, hfound, hsearch⟩ := search_of_loadPayload hload
    { maxGroups := 1, maxEntriesPerGroup := 1 } rfl hcount hcount
  rw [hextraction] at hfound
  cases hfound
  obtain ⟨results, hresults, -, -, hshows⟩ := hsearch " Pack  B"
  refine ⟨extraction, _, _, results, hextraction, hload, hresults, ?_⟩
  apply (hshows _ (by simp [hentries]) _).2
  · decide
  · exact ⟨'P', by decide, by decide⟩
  · decide +kernel

end Catalog

end SymbolSearch
