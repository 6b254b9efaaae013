import SymbolSearch.Directory.Basic
import SymbolSearch.Payload

/-!
This module contains the chunks of an index: the files of one category, numbered by their names, and
how they are found and read, and what is extracted from them.
-/

namespace SymbolSearch

/--
Why a file cannot be read as a text.
-/
inductive Unreadable
  | directory
  | encoding
  deriving Repr, DecidableEq

def Unreadable.reason : Unreadable → String
  | directory => "Is a directory (os error 21)"
  | encoding => "stream did not contain valid UTF-8"

/--
Why nothing could be extracted from chunks.
-/
inductive SourceError
  | category (name : String)
  | noDirectory (path : String)
  | noChunks (name path : String)
  | unreadable (path : String) (cause : Unreadable)
  | payload (path : String) (error : PayloadError)
  deriving Repr, DecidableEq

def SourceError.message : SourceError → String
  | category name => "Invalid index category '" ++ name ++ "'"
  | noDirectory path =>
    "Failed to read search directory " ++ path ++ ": No such file or directory (os error 2)"
  | noChunks name path => "No '" ++ name ++ "' index chunks found in " ++ path
  | unreadable path cause => "Failed to read " ++ path ++ ": " ++ cause.reason
  | payload path error => "Failed to parse " ++ path ++ ": " ++ error.message

/--
Whether a text names a category: it is made of ASCII letters, digits and underscores.
-/
def isCategory (name : String) : Bool :=
  !name.isEmpty && name.toList.all fun c => c.isAlphanum || c == '_'

/--
A file of a category with its number.
-/
structure Chunk where
  number : Nat
  name : String
  body : Body

namespace Chunk

/--
The largest number that tells chunks apart. Chunks with larger numbers are taken to have this one.
-/
def maxNumber : Nat :=
  UInt64.size - 1

/--
The number of a chunk of a category with a given file name. The name consists of the category, an
underscore, the number in hexadecimal digits and the extension of scripts.
-/
def number? (category name : String) : Option Nat :=
  let start := category.toList ++ ['_']
  let behind := name.toList.drop start.length
  let digits := behind.takeWhile (Text.isDigitIn 16)
  let extension := behind.dropWhile (Text.isDigitIn 16)
  if start.isPrefixOf name.toList ∧ !digits.isEmpty ∧ extension = ['.', 'j', 's'] then
    some (min (Text.numeral 16 digits) maxNumber)
  else
    none

/--
The chunk that a file is, if it is one of a category. Files whose name is no text are none.
-/
def ofFile? (category : String) (file : File) : Option Chunk := do
  let name ← String.fromUTF8? file.name
  let number ← number? category name
  return { number, name, body := file.body }

/--
Whether a chunk comes before another one or has the same place: the numbers decide, and between
equal numbers the names.
-/
def precedes (first second : Chunk) : Bool :=
  first.number < second.number || (first.number == second.number && first.name ≤ second.name)

def text (chunk : Chunk) : Except Unreadable String :=
  match chunk.body with
  | .directory => .error .directory
  | .contents bytes =>
    match String.fromUTF8? bytes with
    | none => .error .encoding
    | some text => .ok text

end Chunk

structure ChunkText where
  name : String
  text : String
  deriving Repr, DecidableEq

namespace Directory

/--
The chunks of a category in the order of their numbers.
-/
def chunks (directory : Directory) (category : String) : Except SourceError (List Chunk) :=
  if isCategory category then
    match directory.files? with
    | none => .error (.noDirectory directory.path)
    | some files => .ok ((files.filterMap (Chunk.ofFile? category)).mergeSort Chunk.precedes)
  else
    .error (.category category)

def readChunk (directory : Directory) (chunk : Chunk) : Except SourceError ChunkText :=
  match chunk.text with
  | .ok text => .ok { name := chunk.name, text }
  | .error cause => .error (.unreadable (directory.pathOf chunk.name) cause)

/--
Read all chunks of a category, of which there has to be at least one.
-/
def read (directory : Directory) (category : String) : Except SourceError (List ChunkText) := do
  match ← directory.chunks category with
  | [] => throw (.noChunks category directory.path)
  | chunks => chunks.mapM directory.readChunk

def extractChunk (directory : Directory) (chunk : ChunkText) : Except SourceError Extraction :=
  (Extraction.ofPayload chunk.text).mapError (.payload (directory.pathOf chunk.name))

/--
Extract what all chunks of a category hold, and tell how many there are. Nothing is extracted before
all of them were read.
-/
def extract (directory : Directory) (category : String) : Except SourceError (Extraction × Nat) := do
  let chunks ← directory.read category
  let parts ← chunks.mapM directory.extractChunk
  return (parts.foldl (· ++ ·) {}, chunks.length)

end Directory

end SymbolSearch
