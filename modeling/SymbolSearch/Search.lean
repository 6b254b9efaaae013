import SymbolSearch.Config
import SymbolSearch.Index.Cursor

/-!
This module contains the search for all entries whose key starts with the key of a query, and its
results.
-/

namespace SymbolSearch

/--
What a search shows of a group: the accepted entries up to the limit, how many more there are, and
the label of the first one.
-/
structure Match where
  key : String
  label : String
  entries : List Entry
  omitted : Nat
  deriving Repr, DecidableEq

namespace Match

/--
What is shown of a group; nothing if none of its entries is accepted.
-/
def ofGroup? (config : Config) (group : Group) : Option Match :=
  match group.entries.filter (config.accepts ·.kind) with
  | [] => none
  | first :: rest =>
    let accepted := first :: rest
    some {
      key := group.key
      label := first.label
      entries := accepted.take config.maxEntriesPerGroup
      omitted := accepted.length - config.maxEntriesPerGroup
    }

def total (group : Match) : Nat :=
  group.entries.length + group.omitted

def urls (group : Match) : List String :=
  group.entries.map (·.url)

end Match

/--
The results of a search: the key of the query, the groups that are shown, and whether there are
more.
-/
structure Results where
  query : String
  groups : List Match
  truncated : Bool
  deriving Repr, DecidableEq

namespace Results

def keys (results : Results) : List String :=
  results.groups.map (·.key)

end Results

namespace Index

/--
What is shown of the groups that a cursor lists, and whether there are more than fit. `room` tells
how many still fit, `found` holds what was found so far, last group first. The search ends with the
first group that does not fit.
-/
def collect (config : Config) (cursor : Cursor) (room : Nat) (found : List Match) :
    List Match × Bool :=
  match _h : cursor.next with
  | (none, _) => (found.reverse, false)
  | (some group, rest) =>
    match Match.ofGroup? config group, room with
    | none, _ => collect config rest room found
    | some _, 0 => (found.reverse, true)
    | some shown, room + 1 => collect config rest room (shown :: found)
termination_by cursor.remaining
decreasing_by all_goals exact Cursor.remaining_next_lt _h

/--
Search an index. A query without a key finds nothing.
-/
def search (index : Index) (config : Config) (query : String) : Results :=
  let stem := key query
  let (groups, truncated) := collect config (index.cursor stem) config.maxGroups []
  { query := stem, groups, truncated }

end Index

end SymbolSearch
