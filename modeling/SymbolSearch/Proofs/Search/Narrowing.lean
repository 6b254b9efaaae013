import SymbolSearch.Proofs.Index.Lookup
import SymbolSearch.Proofs.Search

/-!
This module contains the proof that going on with a query only narrows a search: of the groups that
were shown, those remain whose keys the longer query still fits.
-/

namespace SymbolSearch

theorem Match.key_of_ofGroup?_eq_some {config : Config} {group : Group} {shown : Match}
    (h : ofGroup? config group = some shown) : shown.key = group.key := by
  rw [ofGroup?_eq] at h
  split at h
  · contradiction
  · cases h
    rfl

namespace Index

/--
What is shown of the groups whose keys start with a text if any number of them may be shown.
-/
def matching (index : Index) (config : Config) (stem : String) : List Match :=
  (index.scan stem).filterMap (Match.ofGroup? config)

theorem search_eq (index : Index) (config : Config) (query : String) :
    index.search config query = {
      query := key query
      groups := (index.matching config (key query)).take config.maxGroups
      truncated := config.maxGroups < (index.matching config (key query)).length
    } := by
  have hscan : (index.cursor (key query)).toList = index.scan (key query) := toList_cursor _ _
  unfold search matching
  dsimp only
  rw [collect_eq, hscan, List.reverse_nil, List.nil_append]

theorem truncated_search_eq_false_iff {index : Index} {config : Config} {query : String} :
    (index.search config query).truncated = false ↔
      (index.matching config (key query)).length ≤ config.maxGroups := by
  rw [search_eq, decide_eq_false_iff_not, Nat.not_lt]

theorem groups_search_of_not_truncated {index : Index} {config : Config} {query : String}
    (h : (index.search config query).truncated = false) :
    (index.search config query).groups = index.matching config (key query) := by
  rw [search_eq]
  apply List.take_of_length_le (truncated_search_eq_false_iff.mp h)

section

variable {index : Index} {config : Config} {stem longer : String} (hne : stem ≠ "")
  (hfront : stem.toList <+: longer.toList)

include hne hfront

theorem scan_of_starts :
    index.scan longer = (index.scan stem).filter (fun group => longer.toList <+: group.key.toList) := by
  have hlonger : longer ≠ "" := by
    rintro rfl
    apply hne
    rw [← String.toList_eq_nil_iff]
    apply List.prefix_nil.mp hfront
  unfold scan
  rw [if_neg hne, if_neg hlonger, List.filter_filter]
  apply List.filter_congr
  intro group _
  -- A key that starts with the longer text starts with the shorter one as well.
  have hstarts (h : longer.toList <+: group.key.toList) := hfront.trans h
  by_cases hkey : longer.toList <+: group.key.toList <;> simp [hkey, hstarts]

theorem matching_of_starts :
    index.matching config longer =
      (index.matching config stem).filter (fun shown => longer.toList <+: shown.key.toList) := by
  unfold matching
  rw [scan_of_starts hne hfront, List.filterMap_filter, List.filter_filterMap]
  apply List.filterMap_congr
  intro group _
  cases hshown : Match.ofGroup? config group with
  | none => simp
  | some shown =>
    rw [← Match.key_of_ofGroup?_eq_some hshown]
    simp [Option.filter]

end

/-- A query that goes on where another one ends shows exactly those groups of the other one's that it
still fits, as long as the other one shows all of its groups. The key of the front of a query is the
front of its key, also where the query ends inside a word or between two of them. -/
theorem search_narrows {index : Index} {config : Config} {query longer : String}
    (hfront : query.toList <+: longer.toList) (hkey : key query ≠ "")
    (hwhole : (index.search config query).truncated = false) :
    (key query).toList <+: (key longer).toList ∧
      (index.search config longer).truncated = false ∧
      (index.search config longer).groups = (index.search config query).groups.filter
        (fun group => (key longer).toList <+: group.key.toList) := by
  have hkeys := key_prefix_key hfront
  have hmatching : index.matching config (key longer) = _ := matching_of_starts hkey hkeys
  have hlonger : (index.search config longer).truncated = false := by
    have hfits := truncated_search_eq_false_iff.mp hwhole
    apply truncated_search_eq_false_iff.mpr
    apply Nat.le_trans _ hfits
    rw [hmatching]
    apply List.length_filter_le
  refine ⟨hkeys, hlonger, ?_⟩
  rw [groups_search_of_not_truncated hwhole, groups_search_of_not_truncated hlonger, hmatching]

theorem length_matching_ofEntries_le (entries : List Entry) (config : Config) (stem : String) :
    ((ofEntries entries).matching config stem).length ≤ entries.length := by
  calc
    ((ofEntries entries).matching config stem).length ≤ ((ofEntries entries).scan stem).length :=
      List.length_filterMap_le _ _
    _ ≤ (ofEntries entries).entryCount := length_scan_le_entryCount entries stem
    _ ≤ entries.length := by
      rw [entryCount_ofEntries]
      apply List.length_filter_le

theorem search_narrows_behind_blanks :
    let index := ofEntries
      [⟨"P  A b", "", "u", some .member⟩, ⟨"pa", "", "v#w", some .page⟩, ⟨" p a", "", "w", none⟩]
    let config : Config := { maxGroups := 3, maxEntriesPerGroup := 0, kinds := some [.member] }
    (index.search config "P ").truncated = false ∧ key "P \t a" = "p a" ∧
      (index.search config "P \t a").truncated = false ∧
      (index.search config "P \t a").groups = (index.search config "P ").groups.filter
        (fun group => (key "P \t a").toList <+: group.key.toList) := by
  intro index config
  have hwhole : (index.search config "P ").truncated = false := by
    apply truncated_search_eq_false_iff.mpr
    apply length_matching_ofEntries_le
  have hfront : "P ".toList <+: "P \t a".toList := by decide
  exact ⟨hwhole, by decide +kernel, (search_narrows hfront (by decide +kernel) hwhole).2⟩

end Index

end SymbolSearch
