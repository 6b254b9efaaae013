import SymbolSearch.Index.Basic

/-!
This module contains look-ups of all keys that start with a text. Since keys ascend, those are
neighbours: a cursor is placed on the first of them and goes on until a key does not match.
-/

namespace SymbolSearch

/--
A place among the groups of an index from which on the groups whose keys start with `stem` are
listed.
-/
structure Cursor where
  groups : Array Group
  stem : String
  position : Nat

namespace Cursor

/--
Whether the key of a group starts with the stem.
-/
def accepts (cursor : Cursor) (group : Group) : Bool :=
  cursor.stem.toList.isPrefixOf group.key.toList

/--
The next group and the cursor behind it. A cursor that finds none is done and finds none ever after.
-/
def next (cursor : Cursor) : Option Group × Cursor :=
  match cursor.groups[cursor.position]? with
  | none => (none, cursor)
  | some group =>
    if cursor.accepts group then
      (some group, { cursor with position := cursor.position + 1 })
    else
      (none, { cursor with position := cursor.groups.size })

def remaining (cursor : Cursor) : Nat :=
  cursor.groups.size - cursor.position

theorem remaining_next_lt {cursor rest : Cursor} {group : Group}
    (h : cursor.next = (some group, rest)) : rest.remaining < cursor.remaining := by
  unfold next at h
  split at h
  · simp at h
  · next heq =>
    split at h
    · have := (Array.getElem?_eq_some_iff.mp heq).1
      simp only [Prod.mk.injEq] at h
      simp only [← h.2, remaining]
      omega
    · simp at h

def toList (cursor : Cursor) : List Group :=
  match _h : cursor.next with
  | (none, _) => []
  | (some group, rest) => group :: rest.toList
termination_by cursor.remaining
decreasing_by exact remaining_next_lt _h

end Cursor

namespace Index

/--
The cursor on the first key that starts with a given key. Nothing starts with the empty key.
-/
def cursor (index : Index) (stem : String) : Cursor where
  groups := index.groups
  stem := stem
  position := if stem.isEmpty then index.groups.size else index.lowerBound stem

/--
The cursor on the first key that starts with the key of a text.
-/
def lookup (index : Index) (text : String) : Cursor :=
  index.cursor (key text)

end Index

end SymbolSearch
