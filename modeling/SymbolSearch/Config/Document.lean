import SymbolSearch.Config
import SymbolSearch.Toml.Reader

/-!
This module contains the reading of settings from a document. The settings are the two limits and
the list of kinds; a setting that the document leaves out has its default.
-/

namespace SymbolSearch

open Toml (Key Statement Value)

namespace Config

/--
The settings that a document has made so far.
-/
structure Draft where
  maxGroups : Option Nat := none
  maxEntriesPerGroup : Option Nat := none
  kinds : Option (List Kind) := none
  deriving Repr, DecidableEq

namespace Draft

/--
The value of a limit, which is not negative and fits into 64 bits.
-/
def limit? : Value → Option Nat
  | .integer (.ofNat n) => if n < UInt64.size then some n else none
  | _ => none

/--
The kind that a field of a table names, when a kind is written as the table whose only field has the
kind's name and nothing in it.
-/
def kindOfField? : Key → Value → Option Kind
  | [name], .table [] => Kind.ofName? name
  | [name], .array [] => Kind.ofName? name
  | _, _ => none

def kind? : Value → Option Kind
  | .string name => Kind.ofName? name
  | .table [(key, value)] => kindOfField? key value
  | _ => none

def kinds? : Value → Option (List Kind)
  | .array items => items.mapM kind?
  | _ => none

/--
Make a setting. No setting can be made twice.
-/
def set? (draft : Draft) (name : String) (value : Value) : Option Draft :=
  if name = "max_groups" ∧ draft.maxGroups.isNone then
    (limit? value).map fun n => { draft with maxGroups := some n }
  else if name = "max_entries_per_group" ∧ draft.maxEntriesPerGroup.isNone then
    (limit? value).map fun n => { draft with maxEntriesPerGroup := some n }
  else if name = "kinds" ∧ draft.kinds.isNone then
    (kinds? value).map fun kinds => { draft with kinds := some kinds }
  else
    none

/--
The kinds that tables name when each kind has a table of its own at the end of the document.
-/
def kindsOfTables? : List Statement → Option (List Kind)
  | [] => some []
  | .element ["kinds"] :: .assignment key value :: rest => do
    let kind ← kindOfField? key value
    return kind :: (← kindsOfTables? rest)
  | .element ["kinds"] :: .table ["kinds", name] :: rest => do
    let kind ← Kind.ofName? name
    return kind :: (← kindsOfTables? rest)
  | _ => none

def setAll? (draft : Draft) : List Statement → Option Draft
  | [] => some draft
  | .assignment [name] value :: rest => do
    let draft ← draft.set? name value
    draft.setAll? rest
  | tables =>
    if draft.kinds.isNone then
      (kindsOfTables? tables).map fun kinds => { draft with kinds := some kinds }
    else
      none

def toConfig (draft : Draft) : Config :=
  let defaults : Config := {}
  {
    maxGroups := draft.maxGroups.getD defaults.maxGroups
    maxEntriesPerGroup := draft.maxEntriesPerGroup.getD defaults.maxEntriesPerGroup
    kinds := draft.kinds
  }

end Draft

/--
The settings that a document makes, whether or not they are valid.
-/
def ofDocument? (text : String) : Option Config := do
  let statements ← Toml.readDocument text.toList
  let draft ← ({} : Draft).setAll? statements
  return draft.toConfig

def ofDocument (text : String) : Except ConfigError Config :=
  match ofDocument? text with
  | none => .error .malformed
  | some config => config.validate

end Config

end SymbolSearch
