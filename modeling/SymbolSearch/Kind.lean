import SymbolSearch.Text.Blank

/-!
This module contains the kinds of documented things.
-/

namespace SymbolSearch

/--
What a documentation entry describes. The order of the constructors is the order of the kinds.
-/
inductive Kind
  | function
  /-- A variable, a field or any other member that is not called. -/
  | member
  /-- A class, a structure, a union or an interface. -/
  | classLike
  | nameSpace
  | file
  | page
  deriving Repr, DecidableEq, Inhabited

namespace Kind

def all : List Kind :=
  [function, member, classLike, nameSpace, file, page]

def rank : Kind → Nat
  | function => 0
  | member => 1
  | classLike => 2
  | nameSpace => 3
  | file => 4
  | page => 5

/--
Sort kinds by their order and keep repetitions.
-/
def sorted (kinds : List Kind) : List Kind :=
  kinds.mergeSort (·.rank ≤ ·.rank)

def name : Kind → String
  | function => "function"
  | member => "member"
  | classLike => "class"
  | nameSpace => "namespace"
  | file => "file"
  | page => "page"

def words : Kind → List String
  | function => ["function", "functions", "fn"]
  | member => ["member", "members", "variable", "variables"]
  | classLike => ["class", "classes", "struct"]
  | nameSpace => ["namespace", "namespaces"]
  | file => ["file", "files"]
  | page => ["page", "pages"]

/--
The kind with a given name, spelled exactly so.
-/
def ofName? (name : String) : Option Kind :=
  all.find? (·.name == name)

structure Unknown where
  word : String
  deriving Repr, DecidableEq

def Unknown.message (unknown : Unknown) : String :=
  "unknown entry kind '" ++ unknown.word ++ "'"

/--
Read a kind from one of its words. Blanks around the word and the case of its ASCII letters do not
matter; the complaint shows the word without either.
-/
def parse (text : String) : Except Unknown Kind :=
  let word := String.ofList ((Text.trim text.toList).map Char.toLower)
  match all.find? (·.words.contains word) with
  | some kind => .ok kind
  | none => .error ⟨word⟩

def parseAll (texts : List String) : List Kind :=
  texts.filterMap (parse · |>.toOption)

end Kind

end SymbolSearch
