import SymbolSearch.Proofs.Index.Build
import SymbolSearch.Proofs.Index.Prefix
import SymbolSearch.Search

/-!
This module contains the proof that a search finds what a look at every key and every entry finds.
-/

namespace SymbolSearch

theorem Config.accepts_iff {config : Config} {kind : Option Kind} :
    config.accepts kind ↔
      config.kinds = none ∨ ∃ kinds ∈ config.kinds, ∃ given ∈ kinds, kind = some given := by
  unfold accepts
  cases config.kinds <;> cases kind <;> simp

theorem Match.ofGroup?_eq (config : Config) (group : Group) :
    ofGroup? config group =
      if group.entries.filter (config.accepts ·.kind) = [] then none
      else some {
        key := group.key
        label := (((group.entries.filter (config.accepts ·.kind)).map (·.label)).headD "")
        entries := (group.entries.filter (config.accepts ·.kind)).take config.maxEntriesPerGroup
        omitted :=
          (group.entries.filter (config.accepts ·.kind)).length - config.maxEntriesPerGroup
      } := by
  unfold ofGroup?
  split
  · next hnil => rw [if_pos hnil]
  · next first rest hcons => simp [hcons]

namespace Index

theorem collect_eq (config : Config) (cursor : Cursor) (room : Nat) (found : List Match) :
    collect config cursor room found =
      (found.reverse ++ (cursor.toList.filterMap (Match.ofGroup? config)).take room,
        decide (room < (cursor.toList.filterMap (Match.ofGroup? config)).length)) := by
  fun_induction collect config cursor room found with
  | case1 cursor room found rest hnext =>
    rw [Cursor.toList_of_next_eq_none hnext]
    simp
  | case2 cursor room found group rest hnext hnone ih =>
    rw [ih, Cursor.toList_of_next_eq_some hnext, List.filterMap_cons_none hnone]
  | case3 cursor found group rest hnext shown hsome =>
    rw [Cursor.toList_of_next_eq_some hnext, List.filterMap_cons_some hsome]
    simp
  | case4 cursor found group rest hnext shown room hsome ih =>
    rw [ih, Cursor.toList_of_next_eq_some hnext, List.filterMap_cons_some hsome]
    simp

end Index

/--
The usable entries with a key that are shown: all of them if no kinds are given, otherwise those of one
of the given kinds.
-/
def acceptedEntries (config : Config) (entries : List Entry) (wanted : String) : List Entry :=
  (usableEntries entries wanted).filter fun entry =>
    config.kinds = none ∨ ∃ kinds ∈ config.kinds, ∃ given ∈ kinds, entry.kind = some given

theorem filter_accepts_usableEntries (config : Config) (entries : List Entry) (wanted : String) :
    (usableEntries entries wanted).filter (config.accepts ·.kind) =
      acceptedEntries config entries wanted := by
  apply List.filter_congr
  intro entry _
  rw [Bool.eq_iff_iff, Config.accepts_iff, decide_eq_true_eq]

/--
The keys of an index that start with a text and have an entry to show.
-/
def matchingKeys (config : Config) (entries : List Entry) (stem : String) : List String :=
  (Index.ofEntries entries).keys.filter fun wanted =>
    stem.toList <+: wanted.toList ∧ acceptedEntries config entries wanted ≠ []

def Match.ofKey (config : Config) (entries : List Entry) (wanted : String) : Match :=
  let accepted := acceptedEntries config entries wanted
  let shown := accepted.take config.maxEntriesPerGroup
  {
    key := wanted
    label := (accepted.map (·.label)).headD ""
    entries := shown
    omitted := accepted.length - shown.length
  }

/--
The results of a search that looks at every key.
-/
def Results.ofEntries (config : Config) (entries : List Entry) (query : String) : Results :=
  let stem := key query
  let keys := if stem = "" then [] else matchingKeys config entries stem
  {
    query := stem
    groups := (keys.take config.maxGroups).map (Match.ofKey config entries)
    truncated := config.maxGroups < keys.length
  }

theorem Match.ofGroup?_of_mem {config : Config} {entries : List Entry} {group : Group}
    (h : group ∈ (Index.ofEntries entries).groups.toList) :
    ofGroup? config group =
      if acceptedEntries config entries group.key = [] then none
      else some (ofKey config entries group.key) := by
  rw [ofGroup?_eq, Index.entries_of_mem_groups_ofEntries h, filter_accepts_usableEntries]
  simp only [ofKey, List.length_take]
  congr 3
  omega

namespace Index

theorem filterMap_ofGroup?_cursor (config : Config) (entries : List Entry) {stem : String}
    (h : stem ≠ "") :
    ((ofEntries entries).cursor stem).toList.filterMap (Match.ofGroup? config) =
      (matchingKeys config entries stem).map (Match.ofKey config entries) := by
  unfold matchingKeys keys
  rw [toList_cursor, if_neg h, List.filterMap_filter, List.filter_map, List.map_map,
    ← List.filterMap_eq_map, List.filterMap_filter]
  apply List.filterMap_congr
  intro group hmem
  by_cases hstarts : stem.toList <+: group.key.toList
  · rw [Match.ofGroup?_of_mem hmem]
    by_cases haccepted : acceptedEntries config entries group.key = [] <;> simp [hstarts, haccepted]
  · simp [hstarts]

/-- A search of the index of any entries finds what a look at every key finds. -/
theorem search_ofEntries (entries : List Entry) (config : Config) (query : String) :
    (ofEntries entries).search config query = Results.ofEntries config entries query := by
  unfold search Results.ofEntries
  dsimp only
  rw [collect_eq]
  by_cases hempty : key query = ""
  · simp [toList_cursor, hempty]
  · rw [filterMap_ofGroup?_cursor config entries hempty]
    simp [hempty, List.map_take]

end Index

end SymbolSearch
