import SymbolSearch.Json
import SymbolSearch.Search

/-!
This module contains the JSON form of search results.
-/

namespace SymbolSearch

def Entry.toJson (entry : Entry) : Json :=
  .object <|
    [("label", .string entry.label), ("scope", .string entry.scope), ("url", .string entry.url)] ++
      entry.kind.toList.map fun kind => ("kind", .string kind.name)

def Match.toJson (group : Match) : Json :=
  .object
    [
      ("key", .string group.key),
      ("label", .string group.label),
      ("entries", .array (group.entries.map Entry.toJson)),
      ("omitted_entries", .number group.omitted)
    ]

namespace Results

def toJson (results : Results) : Json :=
  .object
    [
      ("query", .string results.query),
      ("groups", .array (results.groups.map Match.toJson)),
      ("truncated", .boolean results.truncated)
    ]

def jsonText (results : Results) : String :=
  .ofList results.toJson.render

end Results

end SymbolSearch
