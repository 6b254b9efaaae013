import SymbolSearch.Entry
import SymbolSearch.Link
import SymbolSearch.Literal.Value
import SymbolSearch.Text.Reference

/-!
This module contains the reading of a symbol, the array that holds a label and the anchors at which
the symbol is documented. A symbol gives one slot for each of its anchors; in each slot there is
either an entry or the defect that spoils it.
-/

namespace SymbolSearch

open Literal (Form Value)

/--
What spoils a slot of a symbol.
-/
inductive Defect
  /-- The symbol starts with something else than a label, or with nothing at all. -/
  | label (found : Option Form)
  /-- The symbol has a label and nothing else. -/
  | noAnchors (text : String)
  | anchor (found : Form)
  | url
  /-- The third field of the anchor is neither a scope nor null. -/
  | scope (found : Form)
  deriving Repr, DecidableEq

def Defect.reason : Defect → String
  | label found => "expected a label string, found " ++ (found.map Form.description).getD "nothing"
  | noAnchors text => "symbol '" ++ text ++ "' has no anchors"
  | anchor found => "expected an anchor array, found " ++ found.description
  | url => "anchor url is not a string"
  | scope found => "anchor scope is " ++ found.description

inductive Slot
  | entry (value : Entry)
  /-- Nothing, because of a defect at the given anchor or, without one, of the symbol itself. -/
  | skipped (anchor : Option Nat) (defect : Defect)
  deriving Repr, DecidableEq

namespace Slot

def entry? : Slot → Option Entry
  | entry value => some value
  | skipped _ _ => none

/--
The scope in the third field of an anchor. Null and a missing field stand for an empty scope.
-/
def scope : List Value → Except Defect String
  | _ :: _ :: .string scope :: _ => .ok scope
  | _ :: _ :: .null :: _ => .ok ""
  | _ :: _ :: other :: _ => .error (.scope other.form)
  | _ => .ok ""

/--
The entry of the anchor with the given fields: a url, a field without meaning here, and a scope. In
scopes, as in labels, characters may be written as references, in urls they may not.
-/
def entryOfFields (label : String) (fields : List Value) : Except Defect Entry :=
  match fields with
  | .string url :: _ => do
    let scope := Text.decoded (← scope fields)
    return { label, scope, url, kind := Kind.infer? url scope }
  | _ => .error .url

def entryOfAnchor (label : String) : Value → Except Defect Entry
  | .array fields => entryOfFields label fields
  | other => .error (.anchor other.form)

def ofEntry (anchor : Nat) : Except Defect Entry → Slot
  | .ok value => entry value
  | .error defect => skipped (some anchor) defect

/--
The slots of a symbol. Behind the label there are either anchors or, in the older form, the fields
of a single anchor, which can be told from the url among them.
-/
def ofSymbol : List Value → List Slot
  | [] => [skipped none (.label none)]
  | .string text :: fields =>
    let label := Text.decoded text
    match fields with
    | [] => [skipped none (.noAnchors label)]
    | .string _ :: _ => [ofEntry 0 (entryOfFields label fields)]
    | anchors => anchors.zipIdx.map fun (anchor, i) => ofEntry i (entryOfAnchor label anchor)
  | other :: _ => [skipped none (.label (some other.form))]

end Slot

end SymbolSearch
