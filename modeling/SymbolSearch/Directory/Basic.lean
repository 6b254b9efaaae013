/-!
This module contains directories as far as index chunks are looked for in them.
-/

namespace SymbolSearch

/--
What a name in a directory leads to.
-/
inductive Body
  /-- A file with its contents, which need not be text. -/
  | contents (bytes : ByteArray)
  | directory

/--
A name in a directory and what it leads to. The name need not be text either.
-/
structure File where
  name : ByteArray
  body : Body

/--
A path and what is in the directory there, in no particular order. Nothing is in it if there is no
such directory.
-/
structure Directory where
  path : String
  files? : Option (List File)

/--
The path of what has a name in a directory. There is a slash between the two, unless the path of the
directory is empty or ends in one.
-/
def Directory.pathOf (directory : Directory) (name : String) : String :=
  match directory.path.toList.getLast? with
  | none | some '/' => directory.path ++ name
  | some _ => directory.path ++ "/" ++ name

end SymbolSearch
