import Mathlib.Data.List.Nodup
import Mathlib.Data.List.Perm.Basic
import SymbolSearch.Config.Document
import SymbolSearch.Proofs.Toml.Grammar

/-!
This module contains the settings that a document makes one after the other. What they come to does
not depend on their order, and no setting can be made twice.
-/

namespace SymbolSearch.Config

open Toml (Key Statement Value)

/--
A setting with the value that it is given.
-/
inductive Setting
  | maxGroups (n : Nat)
  | maxEntriesPerGroup (n : Nat)
  | kinds (accepted : List Kind)

namespace Setting

def name : Setting → String
  | .maxGroups _ => "max_groups"
  | .maxEntriesPerGroup _ => "max_entries_per_group"
  | .kinds _ => "kinds"

def value : Setting → Value
  | .maxGroups n => .integer n
  | .maxEntriesPerGroup n => .integer n
  | .kinds accepted => .array (accepted.map fun kind => .string kind.name)

def key (setting : Setting) : Key :=
  [setting.name]

def statement (setting : Setting) : Statement :=
  .assignment setting.key setting.value

/--
Whether the value is within the range of its setting.
-/
def Fits : Setting → Prop
  | .maxGroups n => n < UInt64.size
  | .maxEntriesPerGroup n => n < UInt64.size
  | .kinds _ => True

end Setting

namespace Draft

def settings (draft : Draft) : List Setting :=
  draft.maxGroups.toList.map .maxGroups ++
    (draft.maxEntriesPerGroup.toList.map .maxEntriesPerGroup ++ draft.kinds.toList.map .kinds)

def keys (draft : Draft) : List Key :=
  draft.settings.map Setting.key

def make (draft : Draft) : Setting → Draft
  | .maxGroups n => { draft with maxGroups := some n }
  | .maxEntriesPerGroup n => { draft with maxEntriesPerGroup := some n }
  | .kinds kinds => { draft with kinds := some kinds }

theorem maxGroups_mem_settings_iff {draft : Draft} {n : Nat} :
    .maxGroups n ∈ draft.settings ↔ draft.maxGroups = some n := by
  simp [settings]

theorem maxEntriesPerGroup_mem_settings_iff {draft : Draft} {n : Nat} :
    .maxEntriesPerGroup n ∈ draft.settings ↔ draft.maxEntriesPerGroup = some n := by
  simp [settings]

theorem kinds_mem_settings_iff {draft : Draft} {kinds : List Kind} :
    .kinds kinds ∈ draft.settings ↔ draft.kinds = some kinds := by
  simp [settings]

theorem eq_of_settings_perm {draft draft' : Draft} (h : draft.settings.Perm draft'.settings) :
    draft = draft' := by
  have hgroups : draft.maxGroups = draft'.maxGroups := by
    apply Option.ext
    intro n
    rw [← maxGroups_mem_settings_iff, ← maxGroups_mem_settings_iff, h.mem_iff]
  have hentries : draft.maxEntriesPerGroup = draft'.maxEntriesPerGroup := by
    apply Option.ext
    intro n
    rw [← maxEntriesPerGroup_mem_settings_iff, ← maxEntriesPerGroup_mem_settings_iff, h.mem_iff]
  have hkinds : draft.kinds = draft'.kinds := by
    apply Option.ext
    intro kinds
    rw [← kinds_mem_settings_iff, ← kinds_mem_settings_iff, h.mem_iff]
  cases draft
  cases draft'
  simp_all

theorem keys_nodup (draft : Draft) : draft.keys.Nodup := by
  obtain ⟨_ | _, _ | _, _ | _⟩ := draft <;> simp [keys, settings, Setting.key, Setting.name]

/--
Whether nothing was said yet on what a setting is about.
-/
def lacks (draft : Draft) : Setting → Bool
  | .maxGroups _ => draft.maxGroups.isNone
  | .maxEntriesPerGroup _ => draft.maxEntriesPerGroup.isNone
  | .kinds _ => draft.kinds.isNone

theorem lacks_iff {draft : Draft} {setting : Setting} :
    draft.lacks setting ↔ setting.key ∉ draft.keys := by
  obtain ⟨_ | _, _ | _, _ | _⟩ := draft
  all_goals cases setting <;> simp [lacks, keys, settings, Setting.key, Setting.name]

theorem settings_make {draft : Draft} {setting : Setting} (h : setting.key ∉ draft.keys) :
    (draft.make setting).settings.Perm (setting :: draft.settings) := by
  have hlacks := lacks_iff.mpr h
  cases setting with
  | maxGroups n =>
    have hnone : draft.maxGroups = none := Option.isNone_iff_eq_none.mp hlacks
    simp [settings, make, hnone]
  | maxEntriesPerGroup n =>
    have hnone : draft.maxEntriesPerGroup = none := Option.isNone_iff_eq_none.mp hlacks
    simp [settings, make, hnone]
  | kinds kinds =>
    have hnone : draft.kinds = none := Option.isNone_iff_eq_none.mp hlacks
    simp only [settings, make, hnone, Option.toList_none, Option.toList_some, List.map_nil,
      List.map_cons, List.append_nil, ← List.append_assoc]
    apply List.perm_append_singleton

theorem limit?_integer {n : Nat} (h : n < UInt64.size) : limit? (.integer n) = some n :=
  if_pos h

theorem kinds?_names (kinds : List Kind) :
    kinds? (.array (kinds.map fun kind => .string kind.name)) = some kinds := by
  have hname (kind : Kind) : kind? (.string kind.name) = some kind := by cases kind <;> rfl
  unfold kinds?
  induction kinds with
  | nil => rfl
  | cons kind kinds ih => simp [hname, ih]

theorem set?_value {draft : Draft} {setting : Setting} (h : setting.key ∉ draft.keys)
    (hfits : setting.Fits) :
    draft.set? setting.name setting.value = some (draft.make setting) := by
  have hlacks := lacks_iff.mpr h
  unfold set?
  cases setting with
  | maxGroups n =>
    rw [if_pos ⟨rfl, hlacks⟩]
    simp [Setting.value, limit?_integer hfits, make]
  | maxEntriesPerGroup n =>
    rw [if_neg (by simp [Setting.name]), if_pos ⟨rfl, hlacks⟩]
    simp [Setting.value, limit?_integer hfits, make]
  | kinds kinds =>
    rw [if_neg (by simp [Setting.name]), if_neg (by simp [Setting.name]), if_pos ⟨rfl, hlacks⟩]
    simp [Setting.value, kinds?_names, make]

theorem set?_eq_some {draft draft' : Draft} {name : String} {value : Value}
    (h : draft.set? name value = some draft') :
    ∃ setting : Setting, setting.name = name ∧ setting.key ∉ draft.keys ∧ draft' = draft.make setting := by
  unfold set? at h
  split at h
  · next hcond =>
    obtain ⟨n, -, rfl⟩ := Option.map_eq_some_iff.mp h
    exact ⟨.maxGroups n, hcond.1.symm, lacks_iff.mp hcond.2, rfl⟩
  · split at h
    · next hcond =>
      obtain ⟨n, -, rfl⟩ := Option.map_eq_some_iff.mp h
      exact ⟨.maxEntriesPerGroup n, hcond.1.symm, lacks_iff.mp hcond.2, rfl⟩
    · split at h
      · next hcond =>
        obtain ⟨kinds, -, rfl⟩ := Option.map_eq_some_iff.mp h
        exact ⟨.kinds kinds, hcond.1.symm, lacks_iff.mp hcond.2, rfl⟩
      · contradiction

theorem eq_element_of_kindsOfTables? {statement : Statement} {more : List Statement} {kinds : List Kind}
    (h : kindsOfTables? (statement :: more) = some kinds) : statement = .element ["kinds"] := by
  unfold kindsOfTables? at h
  split at h
  · contradiction
  · next heq =>
    cases heq
    rfl
  · next heq =>
    cases heq
    rfl
  · contradiction

/--
What a statement does to a draft, if it can stand there.
-/
theorem setAll?_cons_eq_some {draft target : Draft} {statement : Statement} {more : List Statement}
    (h : draft.setAll? (statement :: more) = some target) :
    (∃ setting : Setting, ∃ value, statement = .assignment setting.key value ∧
      setting.key ∉ draft.keys ∧ (draft.make setting).setAll? more = some target) ∨
    ∃ setting : Setting, statement = .element setting.key ∧ setting.key ∉ draft.keys := by
  unfold setAll? at h
  split at h
  · contradiction
  · next name value rest heq =>
    cases heq
    obtain ⟨draft', hset, hrest⟩ := Option.bind_eq_some_iff.mp h
    obtain ⟨setting, rfl, hkey, rfl⟩ := set?_eq_some hset
    exact .inl ⟨setting, value, rfl, hkey, hrest⟩
  · split at h
    · next hnone =>
      obtain ⟨kinds, htables, -⟩ := Option.map_eq_some_iff.mp h
      have hkey : (Setting.kinds kinds).key ∉ draft.keys := lacks_iff.mp hnone
      exact .inr ⟨.kinds kinds, eq_element_of_kindsOfTables? htables, hkey⟩
    · contradiction

theorem setAll?_assignment (draft : Draft) (name : String) (value : Value) (rest : List Statement) :
    draft.setAll? (.assignment [name] value :: rest) =
      (draft.set? name value).bind fun draft' => draft'.setAll? rest :=
  rfl

/--
A draft is what the settings in it come to, in whatever order they are made.
-/
theorem setAll?_of_perm {draft target : Draft} {settings : List Setting}
    (hfits : ∀ setting ∈ settings, setting.Fits)
    (h : (draft.settings ++ settings).Perm target.settings) :
    draft.setAll? (settings.map Setting.statement) = some target := by
  induction settings generalizing draft with
  | nil =>
    rw [List.append_nil] at h
    rw [eq_of_settings_perm h]
    rfl
  | cons setting settings ih =>
    rw [List.forall_mem_cons] at hfits
    -- The target has each of its keys once, so the draft cannot have the key of the next setting yet.
    have hkey : setting.key ∉ draft.keys := by
      have hnodup := (h.map Setting.key).nodup_iff.mpr target.keys_nodup
      rw [List.map_append, List.map_cons] at hnodup
      intro hmem
      exact (List.nodup_append.mp hnodup).2.2 _ hmem _ List.mem_cons_self rfl
    have hmake : ((draft.make setting).settings ++ settings).Perm target.settings :=
      (((settings_make hkey).append_right settings).trans List.perm_middle.symm).trans h
    rw [List.map_cons, Setting.statement, Setting.key, setAll?_assignment, set?_value hkey hfits.1,
      Option.bind_some]
    exact ih hfits.2 hmake

/--
Behind the assignments of a document there can be no statement about anything but the settings and none
about one of these assignments again.
-/
theorem setAll?_eq_none {draft : Draft} {front more : List Statement} {statement : Statement}
    (hfront : ∀ other ∈ front, ∃ key value, other = .assignment key value)
    (h : (∀ setting : Setting, statement.key ≠ setting.key) ∨
      statement.key ∈ draft.keys ++ front.map Statement.key) :
    draft.setAll? (front ++ statement :: more) = none := by
  rw [Option.eq_none_iff_forall_ne_some]
  intro target htarget
  induction front generalizing draft with
  | nil =>
    rw [List.map_nil, List.append_nil] at h
    rcases setAll?_cons_eq_some htarget with ⟨setting, value, rfl, hkey, -⟩ | ⟨setting, rfl, hkey⟩
    all_goals
      rcases h with hne | hmem
      · exact hne setting rfl
      · exact hkey hmem
  | cons other front ih =>
    rw [List.forall_mem_cons] at hfront
    obtain ⟨⟨key, value, rfl⟩, hfront⟩ := hfront
    rcases setAll?_cons_eq_some htarget with ⟨setting, value', heq, hkey, hmore⟩ | ⟨setting, heq, -⟩
    · cases heq
      refine ih hfront (h.imp_right fun hmem => ?_) hmore
      have hkeys := ((settings_make hkey).map Setting.key).append_right (front.map Statement.key)
      exact hkeys.mem_iff.mpr (List.perm_middle.mem_iff.mp hmem)
    · contradiction

end Draft

end SymbolSearch.Config
