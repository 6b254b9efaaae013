import SymbolSearch.Kind

/-!
This module contains the two parts of a link that tell what it leads to: the file that holds the
documentation and the anchor inside that file. The naming scheme of the documentation files gives
the kind of an entry away.
-/

namespace SymbolSearch

/--
The last segment of a link's path and what follows the first `#`, which is empty if there is no `#`.
-/
structure Link where
  file : List Char
  anchor : List Char
  deriving Repr, DecidableEq

namespace Link

/--
Take a url apart. The path ends at the first `#`.
-/
def ofUrl (url : String) : Link :=
  let path := url.toList.takeWhile (· != '#')
  let anchor := (url.toList.dropWhile (· != '#')).drop 1
  { file := (path.reverse.takeWhile (· != '/')).reverse, anchor }

/--
Whether a text occurs somewhere in another one.
-/
def occursIn (part : List Char) : List Char → Bool
  | [] => part.isEmpty
  | c :: r => part.isPrefixOf (c :: r) || occursIn part r

def extension : List Char :=
  ['.', 'h', 't', 'm', 'l']

def isDocument (link : Link) : Bool :=
  extension.isSuffixOf link.file

/--
The file without the extension of documentation files.
-/
def stem (link : Link) : List Char :=
  if link.isDocument then
    link.file.take (link.file.length - extension.length)
  else
    link.file

/--
The kind of what a link leads to. An anchor leads to a member of what the file documents, which is a
function if its scope shows a parameter list. Otherwise the file documents something as a whole: the
beginning of its name tells classes and namespaces, and an escaped full stop inside the name tells
source files.
-/
def kind? (link : Link) (scope : String) : Option Kind :=
  if link.file.isEmpty then
    none
  else if !link.anchor.isEmpty then
    if scope.toList.contains '(' then some .function else some .member
  else if ["class", "struct", "union", "interface"].any (·.toList.isPrefixOf link.stem) then
    some .classLike
  else if "namespace".toList.isPrefixOf link.stem then
    some .nameSpace
  else if occursIn ['_', '8'] link.stem then
    some .file
  else if link.isDocument then
    some .page
  else
    none

end Link

/--
The kind that an entry's url and scope imply.
-/
def Kind.infer? (url scope : String) : Option Kind :=
  (Link.ofUrl url).kind? scope

end SymbolSearch
