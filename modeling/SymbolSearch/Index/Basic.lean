import SymbolSearch.Index.Group

/-!
This module contains the index: the groups of all usable entries in ascending order of their keys,
how many entries these are, and a rejection for each entry that is not usable. Exact look-ups find
their group by binary search.
-/

namespace SymbolSearch

/--
Which of the texts that an entry needs are blank.
-/
inductive Blank
  | label
  | url
  | both
  deriving Repr, DecidableEq

def Blank.reason : Blank → String
  | label => "empty label"
  | url => "empty url"
  | both => "empty label and url"

/--
Which of the texts that a trimmed entry needs are empty, if any are.
-/
def Entry.blank? (entry : Entry) : Option Blank :=
  match entry.label.isEmpty, entry.url.isEmpty with
  | true, true => some .both
  | true, false => some .label
  | false, true => some .url
  | false, false => none

/--
An entry that an index does not hold: its position in the list from which the index was built, and
the reason.
-/
structure Rejection where
  position : Nat
  blank : Blank
  deriving Repr, DecidableEq

def Rejection.message (rejection : Rejection) : String :=
  "malformed entry at position " ++ toString rejection.position ++ ": " ++ rejection.blank.reason

/--
An index of entries by their keys, with the number of the entries in all groups.
-/
structure Index where
  groups : Array Group
  entryCount : Nat
  rejections : List Rejection
  ascending : groups.toList.Pairwise (·.key < ·.key)
  counted : entryCount = (groups.toList.flatMap Group.entries).length

namespace Index

/--
The index of a list of entries. Entries are trimmed first; one that then lacks its label or its url
is rejected.
-/
def ofEntries (entries : List Entry) : Index :=
  let trimmed := entries.map Entry.trim
  let usable := trimmed.filter (·.blank?.isNone)
  {
    groups := (Group.ofEntries usable).toArray
    entryCount := usable.length
    rejections := trimmed.zipIdx.filterMap fun (entry, position) =>
      entry.blank?.map ({ position, blank := · })
    ascending := Group.pairwise_ofEntries usable
    counted := (Group.length_flatMap_entries_ofEntries usable).symm
  }

def keys (index : Index) : List String :=
  index.groups.toList.map (·.key)

def size (index : Index) : Nat :=
  index.groups.size

def isEmpty (index : Index) : Bool :=
  index.groups.isEmpty

/--
The position of the first group whose key is not less than a text, or the number of groups if there
is none.
-/
def lowerBound (index : Index) (text : String) : Nat :=
  go index.groups text 0 index.groups.size (Nat.le_refl _)
where
  /-- The position lies between `low` and `high`; each step halves what is between them. -/
  go (groups : Array Group) (text : String) (low high : Nat) (hhigh : high ≤ groups.size) : Nat :=
    if hlt : low < high then
      let middle := low + (high - low) / 2
      have hmiddle : middle < high := by omega
      if groups[middle].key < text then
        go groups text (middle + 1) high hhigh
      else
        go groups text low middle (by omega)
    else
      low
  termination_by high - low

/--
The entries whose key is the key of a text.
-/
def get? (index : Index) (text : String) : Option (List Entry) :=
  let wanted := key text
  match index.groups[index.lowerBound wanted]? with
  | none => none
  | some group => if group.key = wanted then some group.entries else none

end Index

end SymbolSearch
