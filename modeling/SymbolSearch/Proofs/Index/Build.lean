import Mathlib
import SymbolSearch.Index.Basic
import SymbolSearch.Proofs.Index.Table
import SymbolSearch.Proofs.Key

/-!
This module contains what an index holds of the entries from which it was built. Every entry is
either in the group of its key, or rejected for what is blank in it.
-/

namespace SymbolSearch

open Text (trimmed)

namespace Entry

/--
Whether an entry has the texts that an index needs of it: a label and a url that are not blank.
-/
def Usable (entry : Entry) : Prop :=
  trimmed entry.label ≠ "" ∧ trimmed entry.url ≠ ""

instance : DecidablePred Usable := fun entry =>
  inferInstanceAs (Decidable (trimmed entry.label ≠ "" ∧ trimmed entry.url ≠ ""))

/--
An entry as an index holds it: its texts without the blanks around them, its kind as it was.
-/
def held (entry : Entry) : Entry where
  label := trimmed entry.label
  scope := trimmed entry.scope
  url := trimmed entry.url
  kind := entry.kind

theorem trim_eq_held : trim = held :=
  rfl

@[simp]
theorem label_trim (entry : Entry) : entry.trim.label = trimmed entry.label :=
  rfl

@[simp]
theorem scope_trim (entry : Entry) : entry.trim.scope = trimmed entry.scope :=
  rfl

@[simp]
theorem url_trim (entry : Entry) : entry.trim.url = trimmed entry.url :=
  rfl

@[simp]
theorem kind_trim (entry : Entry) : entry.trim.kind = entry.kind :=
  rfl

end Entry

/--
What an index holds of a list of entries under a key: the usable ones with that key, in the order in
which they came.
-/
def usableEntries (entries : List Entry) (wanted : String) : List Entry :=
  (entries.filter fun entry => entry.Usable ∧ key entry.label = wanted).map Entry.held

/--
Whether this is what is blank in an entry.
-/
def Blank.Spoils (entry : Entry) : Blank → Prop
  | label => trimmed entry.label = "" ∧ trimmed entry.url ≠ ""
  | url => trimmed entry.label ≠ "" ∧ trimmed entry.url = ""
  | both => trimmed entry.label = "" ∧ trimmed entry.url = ""

namespace Entry

theorem blank?_trim_eq_some_iff {entry : Entry} {blank : Blank} :
    entry.trim.blank? = some blank ↔ blank.Spoils entry := by
  unfold blank?
  rw [label_trim, url_trim]
  cases hlabel : (trimmed entry.label).isEmpty <;> cases hurl : (trimmed entry.url).isEmpty <;>
    cases blank <;> simp_all [Blank.Spoils]

theorem blank?_trim_eq_none_iff {entry : Entry} : entry.trim.blank? = none ↔ entry.Usable := by
  unfold blank?
  rw [label_trim, url_trim]
  cases hlabel : (trimmed entry.label).isEmpty <;> cases hurl : (trimmed entry.url).isEmpty <;>
    simp_all [Usable]

theorem filter_isNone_blank?_map_trim (entries : List Entry) :
    (entries.map trim).filter (·.blank?.isNone) = (entries.filter (·.Usable)).map trim := by
  rw [List.filter_map]
  apply congrArg (List.map trim)
  apply List.filter_congr
  intro entry _
  rw [Function.comp_apply, Bool.eq_iff_iff, Option.isNone_iff_eq_none, blank?_trim_eq_none_iff,
    decide_eq_true_eq]

theorem key_label_ne_empty {entry : Entry} (h : entry.Usable) : key entry.label ≠ "" := by
  intro hempty
  exact h.1 (key_eq_empty_iff_trimmed.mp hempty)

end Entry

namespace Index

/--
The index holds exactly what can be used of a list of entries.
-/
structure Represents (index : Index) (entries : List Entry) : Prop where
  pairwise_keys : index.keys.Pairwise (fun a b => a.toUTF8.data.toList < b.toUTF8.data.toList)
  ne_empty_of_mem_keys : ∀ wanted ∈ index.keys, wanted ≠ ""
  mem_keys_iff : ∀ wanted, wanted ∈ index.keys ↔
    ∃ entry ∈ entries, entry.Usable ∧ key entry.label = wanted
  entries_eq : ∀ group ∈ index.groups.toList, group.entries = usableEntries entries group.key
  entries_ne_nil : ∀ group ∈ index.groups.toList, group.entries ≠ []
  entryCount_eq_sum : index.entryCount = (index.groups.toList.map (·.entries.length)).sum
  entryCount_eq_length : index.entryCount = (entries.filter (·.Usable)).length
  pairwise_rejections : index.rejections.Pairwise (·.position < ·.position)
  mem_rejections_iff : ∀ position blank, ⟨position, blank⟩ ∈ index.rejections ↔
    ∃ entry, entries[position]? = some entry ∧ blank.Spoils entry
  entryCount_add_rejections : index.entryCount + index.rejections.length = entries.length

theorem groups_ofEntries (entries : List Entry) :
    (ofEntries entries).groups.toList =
      Group.ofEntries ((entries.filter (·.Usable)).map Entry.trim) := by
  unfold ofEntries
  dsimp only
  rw [Entry.filter_isNone_blank?_map_trim]

theorem mem_keys_ofEntries_iff {entries : List Entry} {wanted : String} :
    wanted ∈ (ofEntries entries).keys ↔
      ∃ entry ∈ entries, entry.Usable ∧ key entry.label = wanted := by
  unfold keys
  rw [groups_ofEntries, List.mem_map, Group.mem_ofEntries_keys_iff]
  constructor
  · rintro ⟨_, hmem, hkey⟩
    obtain ⟨entry, hentry, rfl⟩ := List.mem_map.mp hmem
    obtain ⟨hentry, husable⟩ := List.mem_filter.mp hentry
    rw [Entry.label_trim, key_trimmed] at hkey
    exact ⟨entry, hentry, of_decide_eq_true husable, hkey⟩
  · rintro ⟨entry, hentry, husable, hkey⟩
    refine ⟨entry.trim, ?_, ?_⟩
    · exact List.mem_map_of_mem (List.mem_filter.mpr ⟨hentry, decide_eq_true husable⟩)
    · rw [Entry.label_trim, key_trimmed, hkey]

theorem entries_of_mem_groups_ofEntries {entries : List Entry} {group : Group}
    (h : group ∈ (ofEntries entries).groups.toList) :
    group.entries = usableEntries entries group.key := by
  rw [groups_ofEntries] at h
  rw [Group.entries_of_mem_ofEntries h, List.filter_map, List.filter_filter, usableEntries,
    ← Entry.trim_eq_held]
  apply congrArg (List.map Entry.trim)
  apply List.filter_congr
  intro entry _
  rw [Function.comp_apply, Entry.label_trim, key_trimmed, Bool.decide_and, Bool.and_comm]

theorem entryCount_eq_sum (index : Index) :
    index.entryCount = (index.groups.toList.map (·.entries.length)).sum := by
  rw [index.counted, List.length_flatMap]

theorem entryCount_ofEntries (entries : List Entry) :
    (ofEntries entries).entryCount = (entries.filter (·.Usable)).length := by
  unfold ofEntries
  dsimp only
  rw [Entry.filter_isNone_blank?_map_trim, List.length_map]

def rejection? (located : Entry × Nat) : Option Rejection :=
  located.1.trim.blank?.map ({ position := located.2, blank := · })

theorem rejections_ofEntries (entries : List Entry) :
    (ofEntries entries).rejections = entries.zipIdx.filterMap rejection? := by
  unfold ofEntries
  dsimp only
  rw [List.zipIdx_map, List.filterMap_map]
  apply List.filterMap_congr
  rintro ⟨entry, position⟩ _
  simp only [Function.comp_apply, Prod.map, rejection?, id]

theorem pairwise_rejections_ofEntries (entries : List Entry) :
    (ofEntries entries).rejections.Pairwise (·.position < ·.position) := by
  have hpositions : entries.zipIdx.Pairwise (·.2 < ·.2) := by
    rw [← List.pairwise_map, List.zipIdx_map_snd]
    exact List.pairwise_lt_range'
  rw [rejections_ofEntries]
  apply hpositions.filterMap
  intro first second hlt _ hfirst _ hsecond
  obtain ⟨_, -, rfl⟩ := Option.map_eq_some_iff.mp hfirst
  obtain ⟨_, -, rfl⟩ := Option.map_eq_some_iff.mp hsecond
  exact hlt

theorem mem_rejections_ofEntries_iff {entries : List Entry} {position : Nat} {blank : Blank} :
    ⟨position, blank⟩ ∈ (ofEntries entries).rejections ↔
      ∃ entry, entries[position]? = some entry ∧ blank.Spoils entry := by
  rw [rejections_ofEntries, List.mem_filterMap]
  constructor
  · rintro ⟨⟨entry, i⟩, hmem, hrejection⟩
    obtain ⟨_, hblank, heq⟩ := Option.map_eq_some_iff.mp hrejection
    cases heq
    exact ⟨entry, List.mem_zipIdx_iff_getElem?.mp hmem, Entry.blank?_trim_eq_some_iff.mp hblank⟩
  · rintro ⟨entry, hget, hspoils⟩
    refine ⟨(entry, position), List.mem_zipIdx_iff_getElem?.mpr hget, ?_⟩
    unfold rejection?
    rw [Entry.blank?_trim_eq_some_iff.mpr hspoils]
    rfl

theorem length_rejections_ofEntries (entries : List Entry) :
    (ofEntries entries).rejections.length = entries.countP (fun entry => ¬entry.Usable) := by
  rw [rejections_ofEntries, List.length_filterMap_eq_countP]
  conv => rhs; rw [← List.zipIdx_map_fst 0 entries, List.countP_map]
  apply List.countP_congr
  rintro ⟨entry, position⟩ _
  simp [rejection?, ← Entry.blank?_trim_eq_none_iff, Option.isSome_iff_ne_none]

/-- Building an index loses nothing and holds nothing twice, and it does not matter in which order a
hash map lists the groups before they are sorted. -/
theorem ofEntries_represents (entries : List Entry) :
    (ofEntries entries).Represents entries ∧
      ∀ sorted : List (String × List Entry),
        sorted.Perm (Group.table ((entries.filter (·.Usable)).map Entry.held)).toList →
          sorted.Pairwise (fun a b => ¬b.1.toUTF8.data.toList < a.1.toUTF8.data.toList) →
            sorted = (ofEntries entries).groups.toList.map Group.toPair := by
  constructor
  · constructor
    case pairwise_keys =>
      unfold keys
      rw [List.pairwise_map]
      apply (ofEntries entries).ascending.imp
      intro a b hlt
      apply Text.lt_iff_toUTF8_lt.mp hlt
    case ne_empty_of_mem_keys =>
      intro wanted hmem
      obtain ⟨entry, -, husable, rfl⟩ := mem_keys_ofEntries_iff.mp hmem
      exact Entry.key_label_ne_empty husable
    case mem_keys_iff =>
      intro wanted
      apply mem_keys_ofEntries_iff
    case entries_eq =>
      intro group hmem
      apply entries_of_mem_groups_ofEntries hmem
    case entries_ne_nil =>
      intro group hmem
      rw [groups_ofEntries] at hmem
      exact Group.entries_ne_nil_of_mem_ofEntries hmem
    case entryCount_eq_sum => exact entryCount_eq_sum _
    case entryCount_eq_length => exact entryCount_ofEntries entries
    case pairwise_rejections => exact pairwise_rejections_ofEntries entries
    case mem_rejections_iff =>
      intro position blank
      apply mem_rejections_ofEntries_iff
    case entryCount_add_rejections =>
      rw [entryCount_ofEntries, length_rejections_ofEntries, ← List.countP_eq_length_filter]
      simpa using (List.length_eq_countP_add_countP (fun entry : Entry => entry.Usable)).symm
  · intro sorted hperm hsorted
    rw [groups_ofEntries, Entry.trim_eq_held]
    apply Group.eq_map_toPair_of_perm hperm hsorted

end Index

end SymbolSearch
