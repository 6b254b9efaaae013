/-!
This module contains documents in the TOML format, as far as settings without fractions, truth
values and times need it.
-/

namespace SymbolSearch.Toml

/--
A key: one name, or several ones that lead into tables inside each other.
-/
abbrev Key :=
  List String

/--
A value. The fields of a table are in the order in which they are written.
-/
inductive Value
  | integer (value : Int)
  | string (text : String)
  | array (items : List Value)
  | table (fields : List (Key × Value))
  deriving Repr, Inhabited

/--
A line of a document.
-/
inductive Statement
  /-- The line `key = value`. -/
  | assignment (key : Key) (value : Value)
  /-- The line `[key]`, which starts a table. -/
  | table (key : Key)
  /-- The line `[[key]]`, which starts a table that is one more item of an array. -/
  | element (key : Key)
  deriving Repr, Inhabited

/--
The outcome of reading something at the start of a text: what was read and the text behind it.
-/
abbrev Step (α : Type) :=
  Option (α × List Char)

def mapRead (f : α → β) : Step α → Step β
  | none => none
  | some (a, rest) => some (f a, rest)

theorem mapRead_eq_some {f : α → β} {step : Step α} {b : β} {r : List Char}
    (h : mapRead f step = some (b, r)) : ∃ a, step = some (a, r) ∧ f a = b := by
  unfold mapRead at h
  split at h
  · contradiction
  · cases h
    exact ⟨_, rfl, rfl⟩

end SymbolSearch.Toml
