import SymbolSearch.Extraction.Basic

/-!
This module contains the shape that a literal needs to have for anything to be extracted from it: an
array of records, each of them an array of an identifier and a symbol.
-/

namespace SymbolSearch

open Literal (Form Value)

/--
How a literal can miss the shape.
-/
inductive Misshape
  | payload (found : Form)
  | record (found : Form)
  | fields (count : Nat)
  | symbol (found : Form)
  deriving Repr, DecidableEq

def Misshape.message : Misshape → String
  | payload found => "expected an array of records, found " ++ found.description
  | record found => "expected a record array, found " ++ found.description
  | fields count => "expected [id, symbol], found " ++ toString count ++ " field(s)"
  | symbol found => "expected a symbol array, found " ++ found.description

/--
The symbol of a record. Its identifier and any fields behind the symbol are without meaning.
-/
def symbolOf : Value → Except Misshape (List Value)
  | .array (_ :: .array symbol :: _) => .ok symbol
  | .array (_ :: other :: _) => .error (.symbol other.form)
  | .array fields => .error (.fields fields.length)
  | other => .error (.record other.form)

/--
The symbols of records, or the number of the first record that has none.
-/
def symbolsOf (records : List Value) : Except (Nat × Misshape) (List (List Value)) :=
  records.zipIdx.mapM fun (record, i) => (symbolOf record).mapError (i, ·)

/--
Extract what a value holds. A missed shape of the value as a whole counts as one of record zero.
-/
def Extraction.ofValue : Value → Except (Nat × Misshape) Extraction
  | .array records => ofSymbols <$> symbolsOf records
  | other => .error (0, .payload other.form)

end SymbolSearch
