import Mathlib.Control.Monad.Basic

/-!
This module contains what the outcome of steps that may fail tells about the outcomes of each of them.
-/

namespace SymbolSearch

theorem bind_eq_ok_iff {x : Except ε α} {f : α → Except ε β} {b : β} :
    x >>= f = .ok b ↔ ∃ a, x = .ok a ∧ f a = .ok b := by
  cases x <;> simp [bind, Except.bind]

theorem bind_eq_error_iff {x : Except ε α} {f : α → Except ε β} {error : ε} :
    x >>= f = .error error ↔ x = .error error ∨ ∃ a, x = .ok a ∧ f a = .error error := by
  cases x <;> simp [bind, Except.bind]

theorem map_eq_ok_iff {f : α → β} {x : Except ε α} {b : β} :
    f <$> x = .ok b ↔ ∃ a, x = .ok a ∧ f a = b := by
  cases x <;> simp [Functor.map, Except.map]

theorem map_eq_error_iff {f : α → β} {x : Except ε α} {error : ε} :
    f <$> x = .error error ↔ x = .error error := by
  cases x <;> simp [Functor.map, Except.map]

theorem mapError_eq_ok_iff {f : ε → ε'} {x : Except ε α} {a : α} :
    x.mapError f = .ok a ↔ x = .ok a := by
  cases x with
  | error => exact ⟨nofun, nofun⟩
  | ok b =>
    change (.ok b : Except ε' α) = .ok a ↔ _
    rw [Except.ok.injEq, Except.ok.injEq]

theorem mapError_eq_error_iff {f : ε → ε'} {x : Except ε α} {error : ε'} :
    x.mapError f = .error error ↔ ∃ cause, x = .error cause ∧ f cause = error := by
  cases x <;> simp [Except.mapError]

theorem map_eq_map_ok_congr {f : α → Except ε β} {g : α → Except ε' β}
    (h : ∀ a b, f a = .ok b ↔ g a = .ok b) {l : List α} {found : List β} :
    l.map f = found.map .ok ↔ l.map g = found.map .ok := by
  induction l generalizing found with
  | nil => simp
  | cons a l ih => cases found <;> simp [h, ih]

theorem map_eq_map_of_map_eq_map_ok {f : α → Except ε β} {g : α → γ} {h : β → γ}
    (hfound : ∀ a b, f a = .ok b → g a = h b) {l : List α} {found : List β}
    (heq : l.map f = found.map .ok) : l.map g = found.map h := by
  induction l generalizing found with
  | nil =>
    have hnil : found = [] := by simpa using heq.symm
    rw [hnil]
    rfl
  | cons a l ih =>
    cases found with
    | nil => contradiction
    | cons b found =>
      simp only [List.map_cons, List.cons.injEq] at heq
      rw [List.map_cons, List.map_cons, hfound a b heq.1, ih heq.2]

theorem mapM_eq_ok_iff {f : α → Except ε β} {l : List α} {found : List β} :
    l.mapM f = .ok found ↔ l.map f = found.map .ok := by
  induction l generalizing found with
  | nil => cases found <;> simp [pure, Except.pure]
  | cons a l ih =>
    rw [List.mapM_cons, List.map_cons]
    cases found with
    | nil => cases f a <;> cases l.mapM f <;> simp [bind, Except.bind, pure, Except.pure]
    | cons b found =>
      rw [List.map_cons, List.cons.injEq, ← ih]
      cases f a <;> cases l.mapM f <;> simp [bind, Except.bind, pure, Except.pure]

theorem exists_mapM_eq_ok_iff {f : α → Except ε β} {l : List α} :
    (∃ found, l.mapM f = .ok found) ↔ ∀ a ∈ l, ∃ b, f a = .ok b := by
  simp only [mapM_eq_ok_iff]
  induction l with
  | nil => exact ⟨fun _ => nofun, fun _ => ⟨[], rfl⟩⟩
  | cons a l ih =>
    rw [List.forall_mem_cons, ← ih]
    constructor
    · rintro ⟨found, heq⟩
      cases found with
      | nil => contradiction
      | cons b found =>
        obtain ⟨ha, hl⟩ := List.cons.inj heq
        exact ⟨⟨b, ha⟩, found, hl⟩
    · rintro ⟨⟨b, ha⟩, found, hl⟩
      exact ⟨b :: found, by rw [List.map_cons, List.map_cons, ha, hl]⟩

/-- A row of steps fails like the first of them that fails. -/
theorem mapM_eq_error_iff {f : α → Except ε β} {l : List α} {error : ε} :
    l.mapM f = .error error ↔ ∃ before a behind, l = before ++ a :: behind ∧
      (∀ b ∈ before, ∃ found, f b = .ok found) ∧ f a = .error error := by
  induction l with
  | nil => simp [pure, Except.pure]
  | cons a l ih =>
    rw [List.mapM_cons, bind_eq_error_iff]
    simp only [bind_eq_error_iff, ih]
    constructor
    · rintro (ha | ⟨found, ha, ⟨before, b, behind, rfl, hbefore, hb⟩ | ⟨_, _, hpure⟩⟩)
      · exact ⟨[], a, l, rfl, nofun, ha⟩
      · exact ⟨a :: before, b, behind, rfl, List.forall_mem_cons.mpr ⟨⟨found, ha⟩, hbefore⟩, hb⟩
      · contradiction
    · rintro ⟨before, b, behind, heq, hbefore, hb⟩
      cases before with
      | nil =>
        cases heq
        exact .inl hb
      | cons c before =>
        cases heq
        obtain ⟨⟨found, ha⟩, hbefore⟩ := List.forall_mem_cons.mp hbefore
        exact .inr ⟨found, ha, .inl ⟨before, b, behind, rfl, hbefore, hb⟩⟩

/-- Two steps may be taken one after the other for each element where the first step always succeeds. -/
theorem mapM_of_mapM_eq_ok {f : α → Except ε β} {g : β → Except ε γ} {l : List α} {found : List β}
    (h : l.mapM f = .ok found) : found.mapM g = l.mapM fun a => f a >>= g := by
  rw [mapM_eq_ok_iff] at h
  induction l generalizing found with
  | nil =>
    have hnil : found = [] := by simpa using h.symm
    rw [hnil]
    rfl
  | cons a l ih =>
    cases found with
    | nil => contradiction
    | cons b found =>
      obtain ⟨ha, hl⟩ := List.cons.inj h
      rw [List.mapM_cons, List.mapM_cons, ha, ih hl]
      rfl

theorem map_mapError {f : α → β} {g : ε → ε'} {x : Except ε α} :
    f <$> x.mapError g = (f <$> x).mapError g := by
  cases x <;> rfl

theorem map_mapM {f : α → Except ε β} {g : β → γ} {l : List α} :
    List.map g <$> l.mapM f = l.mapM fun a => g <$> f a := by
  induction l with
  | nil => rfl
  | cons a l ih =>
    rw [List.mapM_cons, List.mapM_cons, ← ih]
    cases f a <;> cases l.mapM f <;> rfl

end SymbolSearch
