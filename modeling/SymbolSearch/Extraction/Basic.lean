import SymbolSearch.Extraction.Slot

/-!
This module contains what is extracted from a list of symbols: the entries that could be read, a
warning for each one that could not, and the number of records. What is extracted from two lists can
be put together as if it had been extracted from one.
-/

namespace SymbolSearch

open Literal (Value)

/--
A slot that was skipped: which record it is in, which anchor of the record it is unless the record's
symbol itself is spoiled, and the defect. All numbers start at zero.
-/
structure Warning where
  record : Nat
  anchor : Option Nat
  defect : Defect
  deriving Repr, DecidableEq

namespace Warning

def message (warning : Warning) : String :=
  let place :=
    match warning.anchor with
    | none => ""
    | some anchor => ", anchor " ++ toString anchor
  "record " ++ toString warning.record ++ place ++ ": " ++ warning.defect.reason

/--
The warning for the same slot after `count` records were put in front.
-/
def shift (count : Nat) (warning : Warning) : Warning :=
  { warning with record := warning.record + count }

end Warning

def Slot.warning? (record : Nat) : Slot → Option Warning
  | entry _ => none
  | skipped anchor defect => some { record, anchor, defect }

structure Extraction where
  entries : List Entry := []
  warnings : List Warning := []
  records : Nat := 0
  deriving Repr, DecidableEq

namespace Extraction

/--
Put one extraction behind another. The records are numbered through, so the warnings of the second
part move.
-/
def append (first second : Extraction) : Extraction where
  entries := first.entries ++ second.entries
  warnings := first.warnings ++ second.warnings.map (·.shift first.records)
  records := first.records + second.records

instance : Append Extraction where
  append := append

/--
What one symbol after the other holds, one record for each.
-/
def ofSymbols (symbols : List (List Value)) : Extraction :=
  let slots := symbols.map Slot.ofSymbol
  {
    entries := slots.flatMap (·.filterMap Slot.entry?)
    warnings := slots.zipIdx.flatMap fun (slots, record) => slots.filterMap (·.warning? record)
    records := symbols.length
  }

end Extraction

end SymbolSearch
