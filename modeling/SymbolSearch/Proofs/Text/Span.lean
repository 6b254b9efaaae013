/-!
This module contains facts on how far a row of characters of one class goes.
-/

namespace SymbolSearch.Text

/--
Whether no row of characters of a class goes on into a text.
-/
def Stops (p : Char → Bool) (s : List Char) : Prop :=
  ∀ c ∈ s.head?, p c = false

variable {p : Char → Bool}

theorem Stops.nil : Stops p [] := by
  intro c hc
  contradiction

theorem Stops.cons {c : Char} {s : List Char} (h : p c = false) : Stops p (c :: s) := by
  intro d hd
  cases hd
  exact h

theorem stops_beq_iff {c : Char} {s : List Char} : Stops (· == c) s ↔ s.head? ≠ some c := by
  constructor
  · intro h hhead
    have hne := h c hhead
    simp at hne
  · rintro h d hd
    rw [beq_eq_false_iff_ne]
    rintro rfl
    exact h hd

theorem beq_eq_false_of_eq_false {c : Char} (hc : p c = false) (d : Char) (hd : p d) :
    (d == c) = false := by
  rw [beq_eq_false_iff_ne]
  rintro rfl
  rw [hc] at hd
  contradiction

theorem Stops.mono {q : Char → Bool} {s : List Char} (h : Stops p s) (hle : ∀ c, q c → p c) :
    Stops q s := by
  intro c hc
  rw [Bool.eq_false_iff]
  intro hq
  have hp := hle c hq
  rw [h c hc] at hp
  contradiction

theorem Stops.of_head?_eq {s t : List Char} (h : Stops p s) (heq : t.head? = s.head?) :
    Stops p t := by
  unfold Stops
  rw [heq]
  exact h

theorem Stops.all_eq_false {s : List Char} (h : Stops p s) (hne : s ≠ []) : s.all p = false := by
  obtain ⟨c, r, rfl⟩ := List.exists_cons_of_ne_nil hne
  rw [List.all_cons, h c rfl, Bool.false_and]

theorem stops_dropWhile (s : List Char) : Stops p (s.dropWhile p) := by
  intro c hc
  have hhead := List.head?_dropWhile_not p s
  rw [Option.mem_def.mp hc] at hhead
  simpa using hhead

theorem takeWhile_append_of_stops {row s : List Char} (hrow : ∀ c ∈ row, p c) (hs : Stops p s) :
    (row ++ s).takeWhile p = row := by
  rw [List.takeWhile_append_of_pos hrow]
  cases s with
  | nil => simp
  | cons c s => simp [hs c rfl]

theorem dropWhile_append_of_stops {row s : List Char} (hrow : ∀ c ∈ row, p c) (hs : Stops p s) :
    (row ++ s).dropWhile p = s := by
  rw [List.dropWhile_append_of_pos hrow]
  cases s with
  | nil => rfl
  | cons c s => simp [hs c rfl]

end SymbolSearch.Text
