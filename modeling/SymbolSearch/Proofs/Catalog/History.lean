import Mathlib.Data.List.Induction
import SymbolSearch.Catalog

/-!
This module contains the histories of a catalog, that is what it was asked for, one operation after the
other, and the proof that they tell what the catalog holds.
-/

namespace SymbolSearch

/--
What a catalog can be asked for.
-/
inductive Operation
  | loadPayload (payload : String)
  | loadDirectory (directory : Directory) (category : String)
  | replace (index : Index)
  | clear
  | configure (config : Config)
  | search (query : String)

namespace Operation

/--
The index that an operation installs, if it is one that does and does not fail. What the catalog held
before has no part in it.
-/
def index? : Operation → Option Index
  | loadPayload payload => (Extraction.ofPayload payload).toOption.map (.ofEntries ·.entries)
  | loadDirectory directory category =>
    (directory.extract category).toOption.map (.ofEntries ·.1.entries)
  | replace index => some index
  | _ => none

def config? : Operation → Option Config
  | configure config => some config
  | _ => none

end Operation

/--
What a catalog answers.
-/
inductive Answer
  | payload (outcome : Except PayloadError Report)
  | directory (outcome : Except SourceError Report)
  | replaced (index? : Option Index)
  | done
  | results (outcome : Except SearchError Results)

namespace Answer

/--
Whether an answer tells that an index was installed.
-/
def tellsInstall : Answer → Bool
  | payload (.ok _) | directory (.ok _) | replaced _ => true
  | _ => false

/--
Whether an answer tells that a load failed.
-/
def tellsFailure : Answer → Bool
  | payload (.error _) | directory (.error _) => true
  | _ => false

end Answer

/--
Whether some operation of a history is of a first sort and all behind it are of a second one.
-/
def Since (first later : Operation → Prop) (history : List Operation) : Prop :=
  ∃ before operation behind, history = before ++ operation :: behind ∧ first operation ∧
    ∀ other ∈ behind, later other

theorem not_since_nil (first later : Operation → Prop) : ¬Since first later [] := by
  rintro ⟨before, operation, behind, heq, -⟩
  simp at heq

theorem since_concat_iff {first later : Operation → Prop} {history : List Operation}
    {operation : Operation} :
    Since first later (history ++ [operation]) ↔
      first operation ∨ later operation ∧ Since first later history := by
  constructor
  · rintro ⟨before, found, behind, heq, hfirst, hlater⟩
    rcases List.eq_nil_or_concat behind with rfl | ⟨behind, last, rfl⟩
    · obtain ⟨-, hlast⟩ := List.append_inj' heq rfl
      rw [List.singleton_inj.mp hlast]
      exact .inl hfirst
    · rw [List.concat_eq_append, ← List.cons_append, ← List.append_assoc] at heq
      obtain ⟨rfl, hlast⟩ := List.append_inj' heq rfl
      rw [List.singleton_inj.mp hlast]
      simp only [List.concat_eq_append, List.forall_mem_append] at hlater
      exact .inr ⟨hlater.2 last List.mem_cons_self, before, found, behind, rfl, hfirst, hlater.1⟩
  · rintro (hfirst | ⟨hoperation, before, found, behind, rfl, hfirst, hlater⟩)
    · exact ⟨history, operation, [], rfl, hfirst, by simp⟩
    · refine ⟨before, found, behind ++ [operation], by simp, hfirst, ?_⟩
      rw [List.forall_mem_append]
      exact ⟨hlater, by simpa using hoperation⟩

namespace Catalog

def perform (catalog : Catalog) : Operation → Answer × Catalog
  | .loadPayload payload => (catalog.loadPayload payload).map .payload id
  | .loadDirectory directory category => (catalog.loadDirectory directory category).map .directory id
  | .replace index => (.replaced catalog.index?, catalog.install index)
  | .clear => (.done, catalog.clear)
  | .configure config => (.done, catalog.configure config)
  | .search query => (.results (catalog.search query), catalog)

/--
All answers to a history and the catalog behind it.
-/
def run (catalog : Catalog) : List Operation → List Answer × Catalog
  | [] => ([], catalog)
  | operation :: rest =>
    let (answer, next) := catalog.perform operation
    let (answers, last) := next.run rest
    (answer :: answers, last)

/--
What an operation can do to a catalog.
-/
inductive Step (catalog : Catalog) : Operation → Answer → Catalog → Prop
  | install {operation answer index} (hindex : operation.index? = some index)
    (hconfig : operation.config? = none) (hanswer : answer.tellsInstall)
    (hfailure : answer.tellsFailure = false) : Step catalog operation answer (catalog.install index)
  | clear : Step catalog .clear .done catalog.clear
  | configure (config : Config) : Step catalog (.configure config) .done (catalog.configure config)
  | keep {operation answer} (hclear : operation ≠ .clear) (hindex : operation.index? = none)
    (hconfig : operation.config? = none) (hanswer : answer.tellsInstall = false) :
    Step catalog operation answer catalog

theorem step_perform (catalog : Catalog) (operation : Operation) :
    catalog.Step operation (catalog.perform operation).1 (catalog.perform operation).2 := by
  cases operation with
  | loadPayload payload =>
    simp only [perform, loadPayload]
    cases h : Extraction.ofPayload payload with
    | error error => exact .keep (by simp) (by simp [Operation.index?, h, Except.toOption]) rfl rfl
    | ok extraction =>
      exact .install (by simp [Operation.index?, h, Except.toOption]) rfl rfl rfl
  | loadDirectory directory category =>
    simp only [perform, loadDirectory]
    cases h : directory.extract category with
    | error error => exact .keep (by simp) (by simp [Operation.index?, h, Except.toOption]) rfl rfl
    | ok found =>
      exact .install (by simp [Operation.index?, h, Except.toOption]) rfl rfl rfl
  | replace index => exact .install rfl rfl rfl rfl
  | clear => exact .clear
  | configure config => exact .configure config
  | search query => exact .keep (by simp) rfl rfl rfl

namespace Step

variable {catalog after : Catalog} {operation : Operation} {answer : Answer}
  (step : catalog.Step operation answer after)

include step

theorem tellsInstall_iff : answer.tellsInstall ↔ operation.index?.isSome := by
  cases step with
  | install hindex _ hanswer _ => simp [hindex, hanswer]
  | clear => simp [Operation.index?, Answer.tellsInstall]
  | configure => simp [Operation.index?, Answer.tellsInstall]
  | keep _ hindex _ hanswer => simp [hindex, hanswer]

theorem after_eq_of_tellsFailure (h : answer.tellsFailure) : after = catalog := by
  cases step with
  | install _ _ _ hfailure => simp [hfailure] at h
  | clear => contradiction
  | configure => contradiction
  | keep => rfl

theorem generation_eq :
    after.generation = catalog.generation + if answer.tellsInstall then 1 else 0 := by
  cases step with
  | install _ _ hanswer _ => rw [if_pos hanswer, Catalog.install]
  | clear => exact (UInt64.add_zero _).symm
  | configure => exact (UInt64.add_zero _).symm
  | keep _ _ _ hanswer => rw [hanswer, if_neg Bool.false_ne_true, UInt64.add_zero]

theorem config_eq : after.config = operation.config?.getD catalog.config := by
  cases step with
  | install _ hconfig _ _ => simp [Catalog.install, hconfig]
  | clear => rfl
  | configure => rfl
  | keep _ _ hconfig _ => simp [hconfig]

theorem index?_eq_some_iff {index : Index} :
    after.index? = some index ↔ operation.index? = some index ∨
      (operation ≠ .clear ∧ operation.index? = none) ∧ catalog.index? = some index := by
  cases step with
  | install hindex _ _ _ => simp [Catalog.install, hindex]
  | clear => simp [Operation.index?, Catalog.clear]
  | configure => simp [Operation.index?, Catalog.configure]
  | keep hclear hindex _ _ => simp [hclear, hindex]

theorem isLoaded_iff :
    after.isLoaded ↔ operation.index?.isSome ∨ operation ≠ .clear ∧ catalog.isLoaded := by
  cases step with
  | install hindex _ _ _ => simp [Catalog.install, isLoaded, hindex]
  | clear => simp [Operation.index?, Catalog.clear, isLoaded]
  | configure => simp [Operation.index?, Catalog.configure, isLoaded]
  | keep hclear hindex _ _ => simp [hclear, hindex]

end Step

section

variable (catalog : Catalog) (history : List Operation) (operation : Operation)

theorem search_eq_notLoaded_iff (query : String) :
    catalog.search query = .error .notLoaded ↔ ¬catalog.isLoaded := by
  unfold search isLoaded
  cases catalog.index? <;> simp

theorem run_cons :
    catalog.run (operation :: history) =
      ((catalog.perform operation).1 :: ((catalog.perform operation).2.run history).1,
        ((catalog.perform operation).2.run history).2) :=
  rfl

theorem run_concat :
    (catalog.run (history ++ [operation])).2 = ((catalog.run history).2.perform operation).2 := by
  induction history generalizing catalog with
  | nil => rfl
  | cons first history ih => exact ih (catalog.perform first).2

theorem generation_run :
    (catalog.run history).2.generation =
      catalog.generation + UInt64.ofNat ((catalog.run history).1.countP Answer.tellsInstall) := by
  induction history generalizing catalog with
  | nil => exact (UInt64.add_zero _).symm
  | cons first history ih =>
    have hfirst := (catalog.step_perform first).generation_eq
    rw [run_cons, List.countP_cons, ih, hfirst, UInt64.ofNat_add, UInt64.add_assoc]
    cases (catalog.perform first).1.tellsInstall <;> simp [UInt64.add_comm]

theorem config_run :
    (catalog.run history).2.config =
      (history.filterMap Operation.config?).getLast?.getD catalog.config := by
  induction history generalizing catalog with
  | nil => rfl
  | cons first history ih =>
    rw [run_cons, ih, (catalog.step_perform first).config_eq, List.filterMap_cons]
    cases first.config? with
    | none => rfl
    | some config => simp [List.getLast?_cons]

/-- The index is the one of the last install, unless the catalog was cleared behind it. -/
theorem index?_run_eq_some_iff {index : Index} (hnone : catalog.index? = none) :
    (catalog.run history).2.index? = some index ↔
      Since (·.index? = some index) (fun other => other ≠ .clear ∧ other.index? = none) history := by
  induction history using List.reverseRecOn with
  | nil => simp [run, hnone, not_since_nil]
  | append_singleton history operation ih =>
    rw [run_concat, ((catalog.run history).2.step_perform operation).index?_eq_some_iff, ih,
      since_concat_iff]

theorem isLoaded_run_iff (hnone : catalog.index? = none) :
    (catalog.run history).2.isLoaded ↔ Since (·.index?.isSome) (· ≠ .clear) history := by
  induction history using List.reverseRecOn with
  | nil => simp [run, isLoaded, hnone, not_since_nil]
  | append_singleton history operation ih =>
    rw [run_concat, ((catalog.run history).2.step_perform operation).isLoaded_iff, ih,
      since_concat_iff]

/-- Without an install no index comes into a catalog, so that it holds at most the one that it had. -/
theorem index?_of_countP_eq_zero {index : Index}
    (h : (catalog.run history).1.countP Answer.tellsInstall = 0)
    (hindex : (catalog.run history).2.index? = some index) : catalog.index? = some index := by
  induction history generalizing catalog with
  | nil => exact hindex
  | cons operation history ih =>
    rw [run_cons, List.countP_cons, Nat.add_eq_zero_iff] at h
    have step := catalog.step_perform operation
    have hnone : ¬(catalog.perform operation).1.tellsInstall := by
      simpa using h.2
    rcases step.index?_eq_some_iff.mp (ih _ h.1 hindex) with hinstalled | ⟨-, hkept⟩
    · simp [step.tellsInstall_iff, hinstalled] at hnone
    · exact hkept

/-- Fewer installs than there are numbers never come back to the same generation. -/
theorem countP_eq_zero_of_generation_eq
    (hbound : (catalog.run history).1.countP Answer.tellsInstall < UInt64.size)
    (h : (catalog.run history).2.generation = catalog.generation) :
    (catalog.run history).1.countP Answer.tellsInstall = 0 := by
  have hzero : UInt64.ofNat ((catalog.run history).1.countP Answer.tellsInstall) = 0 := by
    rw [generation_run] at h
    simpa using h
  rw [← UInt64.toNat_ofNat_of_lt' hbound, hzero]
  rfl

end

/--
Whether a catalog that was empty at first, and the answers it gave, are what its history says.
-/
structure Recounts (config : Config) (history : List Operation) (answers : List Answer)
    (catalog : Catalog) : Prop where
  generation_eq (hbound : answers.countP Answer.tellsInstall < UInt64.size) :
    (catalog.generation : Nat) = answers.countP Answer.tellsInstall
  isLoaded_iff : catalog.isLoaded ↔ Since (·.index?.isSome) (· ≠ .clear) history
  index?_eq_some_iff {index} : catalog.index? = some index ↔
    Since (·.index? = some index) (fun other => other ≠ .clear ∧ other.index? = none) history
  config_eq : catalog.config = (history.filterMap Operation.config?).getLast?.getD config
  tellsInstall_iff {operation} :
    (catalog.perform operation).1.tellsInstall ↔ operation.index?.isSome
  perform_of_tellsFailure {operation} :
    (catalog.perform operation).1.tellsFailure → (catalog.perform operation).2 = catalog
  perform_search {query} :
    catalog.perform (.search query) = (.results (catalog.search query), catalog)
  search_eq_notLoaded_iff {query} :
    catalog.search query = .error .notLoaded ↔ ¬catalog.isLoaded
  search_eq {index} (h : catalog.index? = some index) {query} :
    catalog.search query = .ok (index.search catalog.config query)
  index?_eq_of_generation_eq {later : List Operation}
    (hbound : (catalog.run later).1.countP Answer.tellsInstall < UInt64.size) :
    (catalog.run later).2.generation = catalog.generation → (catalog.run later).2.isLoaded →
      (catalog.run later).2.index? = catalog.index?

/-- A history alone decides, in whatever order loads, replacements, clearings, settings and searches
come and whether the loads fail or not, what is in the catalog behind it. -/
theorem recounts_run (config : Config) (history : List Operation) :
    Recounts config history (({ config } : Catalog).run history).1
      (({ config } : Catalog).run history).2 := by
  generalize hcatalog : (({ config } : Catalog).run history).2 = catalog
  constructor
  case generation_eq =>
    intro hbound
    rw [← hcatalog, generation_run, UInt64.zero_add, UInt64.toNat_ofNat_of_lt' hbound]
  case isLoaded_iff => rw [← hcatalog, isLoaded_run_iff _ _ rfl]
  case index?_eq_some_iff =>
    intro index
    rw [← hcatalog, index?_run_eq_some_iff _ _ rfl]
  case config_eq => rw [← hcatalog, config_run]
  case tellsInstall_iff =>
    intro operation
    exact (catalog.step_perform operation).tellsInstall_iff
  case perform_of_tellsFailure =>
    intro operation
    exact (catalog.step_perform operation).after_eq_of_tellsFailure
  case perform_search => intros; rfl
  case search_eq_notLoaded_iff =>
    intro query
    exact catalog.search_eq_notLoaded_iff query
  case search_eq =>
    intro index h query
    rw [search, h]
  case index?_eq_of_generation_eq =>
    intro later hbound hgeneration hloaded
    obtain ⟨index, hindex⟩ := Option.isSome_iff_exists.mp hloaded
    have hnone := countP_eq_zero_of_generation_eq catalog later hbound hgeneration
    rw [hindex, index?_of_countP_eq_zero catalog later hnone hindex]

end Catalog

end SymbolSearch
