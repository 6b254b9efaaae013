import SymbolSearch.Proofs.Json.Reader
import SymbolSearch.Proofs.Json.Render
import SymbolSearch.Search.Json

/-!
This module contains the way back from the JSON text of search results: every reader of such texts gives
back exactly these results.
-/

namespace SymbolSearch

namespace Json.Tree

def field? (name : String) : Tree → Option Tree
  | object fields => fields.lookup name
  | _ => none

def text? : Tree → Option String
  | string s => some s
  | _ => none

def flag? : Tree → Option Bool
  | boolean value => some value
  | _ => none

def items? : Tree → Option (List Tree)
  | array items => some items
  | _ => none

/--
A number without sign and fraction.
-/
def count? : Tree → Option Nat
  | number value => if value.num.toNat = value then some value.num.toNat else none
  | _ => none

end Json.Tree

open Json (Tree)

/--
The entry that an object says. A kind that is not set has no field, and a field that is there has to
hold the name of a kind.
-/
def Entry.ofTree? (tree : Tree) : Option Entry := do
  let label ← (tree.field? "label").bind Tree.text?
  let scope ← (tree.field? "scope").bind Tree.text?
  let url ← (tree.field? "url").bind Tree.text?
  match tree.field? "kind" with
  | none => return { label, scope, url, kind := none }
  | some field =>
    let kind ← field.text?.bind Kind.ofName?
    return { label, scope, url, kind := some kind }

def Match.ofTree? (tree : Tree) : Option Match := do
  let key ← (tree.field? "key").bind Tree.text?
  let label ← (tree.field? "label").bind Tree.text?
  let items ← (tree.field? "entries").bind Tree.items?
  let entries ← items.mapM Entry.ofTree?
  let omitted ← (tree.field? "omitted_entries").bind Tree.count?
  return { key, label, entries, omitted }

def Results.ofTree? (tree : Tree) : Option Results := do
  let query ← (tree.field? "query").bind Tree.text?
  let items ← (tree.field? "groups").bind Tree.items?
  let groups ← items.mapM Match.ofTree?
  let truncated ← (tree.field? "truncated").bind Tree.flag?
  return { query, groups, truncated }

theorem Json.Tree.count?_natCast (n : Nat) : (number n).count? = some n := by
  simp [count?]

theorem mapM_map_eq_some {α β : Type} {f : α → β} {g : β → Option α} (h : ∀ a, g (f a) = some a)
    (l : List α) : (l.map f).mapM g = some l := by
  have hid : g ∘ f = fun a => pure (id a) := funext h
  rw [List.mapM_map, hid, List.mapM_pure, List.map_id]
  rfl

theorem Entry.ofTree?_toJson (entry : Entry) : ofTree? entry.toJson.tree = some entry := by
  rcases entry with ⟨label, scope, url, kind⟩
  cases kind with
  | none => rfl
  | some kind => cases kind <;> rfl

theorem Match.ofTree?_toJson (group : Match) : ofTree? group.toJson.tree = some group := by
  have hentries : (Json.trees (group.entries.map Entry.toJson)).mapM Entry.ofTree? =
      some group.entries := by
    rw [Json.trees_eq_map, List.map_map]
    exact mapM_map_eq_some Entry.ofTree?_toJson group.entries
  change ((Json.trees (group.entries.map Entry.toJson)).mapM Entry.ofTree?).bind
    (fun entries => (Tree.number group.omitted).count?.bind fun omitted =>
      some (Match.mk group.key group.label entries omitted)) = some group
  rw [hentries, Option.bind_some, Tree.count?_natCast, Option.bind_some]

namespace Results

theorem ofTree?_toJson (results : Results) : ofTree? results.toJson.tree = some results := by
  have hgroups : (Json.trees (results.groups.map Match.toJson)).mapM Match.ofTree? =
      some results.groups := by
    rw [Json.trees_eq_map, List.map_map]
    exact mapM_map_eq_some Match.ofTree?_toJson results.groups
  change ((Json.trees (results.groups.map Match.toJson)).mapM Match.ofTree?).bind
    (fun groups => some (Results.mk results.query groups results.truncated)) = some results
  rw [hgroups, Option.bind_some]

theorem document_jsonText (results : Results) :
    Json.Document results.jsonText results.toJson.tree :=
  Json.document_render results.toJson

theorem jsonText_injective : Function.Injective jsonText := by
  intro results other heq
  have hother := other.document_jsonText
  rw [← heq] at hother
  have htree := results.document_jsonText.unique hother
  have hresults := results.ofTree?_toJson
  rw [htree, other.ofTree?_toJson] at hresults
  exact (Option.some.inj hresults).symm

/--
The JSON text of search results is a document, and whatever reads it for what it says gives back the
query, the groups with everything in them and whether there are more. So different results have
different texts.
-/
theorem read_jsonText (results : Results) :
    Json.Document results.jsonText results.toJson.tree ∧
      (∀ read, Json.Reads read results.jsonText →
        (read results.jsonText).bind ofTree? = some results) ∧
      ∀ other : Results, other.jsonText = results.jsonText → other = results := by
  refine ⟨results.document_jsonText, ?_, ?_⟩
  · intro read hread
    rw [hread _ results.document_jsonText, Option.bind_some, results.ofTree?_toJson]
  · intro other heq
    exact jsonText_injective heq

/--
Results in which every text has characters that are escaped.
-/
def escaped : Results where
  query := "\"\\\x00"
  groups := [
    {
      key := "\x01\t"
      label := "\n\r😀"
      entries := [
        { label := "\x1f", scope := "</a>\"", url := "\\\"", kind := none },
        { label := "\\u0000", scope := "\x08\x0c", url := "\x7f\\", kind := some .page }
      ]
      omitted := 10
    }
  ]
  truncated := true

theorem read?_jsonText_escaped :
    Json.Reads Json.read? escaped.jsonText ∧
      (Json.read? escaped.jsonText).bind ofTree? = some escaped :=
  have hreads := Json.reads_read? escaped.jsonText
  ⟨hreads, escaped.read_jsonText.2.1 Json.read? hreads⟩

end Results

end SymbolSearch
