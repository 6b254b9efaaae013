import SymbolSearch.Kind

/-!
This module contains the entries of a symbol index.
-/

namespace SymbolSearch

/--
One documented symbol: what it is called, what it belongs to (or its signature), where its
documentation is, and what kind of thing it is.
-/
structure Entry where
  label : String
  scope : String
  url : String
  kind : Option Kind
  deriving Repr, DecidableEq, Inhabited

namespace Entry

/--
An entry whose kind is given as a word. A word that is none of a kind's leaves the entry without
one.
-/
def ofTexts (label scope url kind : String) : Entry :=
  { label, scope, url, kind := (Kind.parse kind).toOption }

/--
Remove the blanks around the texts of an entry.
-/
def trim (entry : Entry) : Entry :=
  { entry with
    label := Text.trimmed entry.label
    scope := Text.trimmed entry.scope
    url := Text.trimmed entry.url }

end Entry

end SymbolSearch
