import SymbolSearch.Directory.Chunk
import SymbolSearch.Search

/-!
This module contains the catalog, which holds the index that is searched at present and the settings
of the search. Each new index takes the place of the old one as a whole; what fails to load changes
nothing.
-/

namespace SymbolSearch

/--
A counter is read as a number.
-/
instance instCoeUInt64Nat : Coe UInt64 Nat where
  coe := UInt64.toNat

/--
The index that is searched, if there is one, the settings, and the number of indexes installed so
far, which starts again at zero when it would not fit into 64 bits.
-/
structure Catalog where
  config : Config := {}
  index? : Option Index := none
  generation : UInt64 := 0

/--
What was counted when an index was loaded.
-/
structure Report where
  files : Nat
  records : Nat
  entries : Nat
  keys : Nat
  warnings : Nat
  deriving Repr, DecidableEq

/--
Why a catalog could not be searched.
-/
inductive SearchError
  | notLoaded
  deriving Repr, DecidableEq

/--
The wording of an error.
-/
def SearchError.message : SearchError → String
  | notLoaded => "no symbol index has been loaded"

/--
Count what was extracted from a number of files and what the index of it holds.
-/
def Report.of (extraction : Extraction) (files : Nat) (index : Index) : Report where
  files := files
  records := extraction.records
  entries := index.entryCount
  keys := index.size
  warnings := extraction.warnings.length + index.rejections.length

namespace Catalog

def isLoaded (catalog : Catalog) : Bool :=
  catalog.index?.isSome

def install (catalog : Catalog) (index : Index) : Catalog :=
  { catalog with index? := some index, generation := catalog.generation + 1 }

def clear (catalog : Catalog) : Catalog :=
  { catalog with index? := none }

def configure (catalog : Catalog) (config : Config) : Catalog :=
  { catalog with config }

/--
Install the index of what was extracted from a number of files.
-/
def installExtraction (catalog : Catalog) (extraction : Extraction) (files : Nat) : Report × Catalog :=
  let index := Index.ofEntries extraction.entries
  (.of extraction files index, catalog.install index)

def loadPayload (catalog : Catalog) (payload : String) : Except PayloadError Report × Catalog :=
  match Extraction.ofPayload payload with
  | .error error => (.error error, catalog)
  | .ok extraction =>
    let (report, catalog) := catalog.installExtraction extraction 1
    (.ok report, catalog)

def loadDirectory (catalog : Catalog) (directory : Directory) (category : String) :
    Except SourceError Report × Catalog :=
  match directory.extract category with
  | .error error => (.error error, catalog)
  | .ok (extraction, files) =>
    let (report, catalog) := catalog.installExtraction extraction files
    (.ok report, catalog)

def search (catalog : Catalog) (query : String) : Except SearchError Results :=
  match catalog.index? with
  | none => .error .notLoaded
  | some index => .ok (index.search catalog.config query)

end Catalog

end SymbolSearch
