import SymbolSearch.Literal.Number
import SymbolSearch.Literal.Quoted
import SymbolSearch.Literal.Trivia

/-!
This module contains the reading of a whole literal: arrays of strings, numbers, `null`, truth
values and further arrays.
-/

namespace SymbolSearch.Literal

/--
How deep arrays may lie inside each other.
-/
def maxDepth : Nat :=
  128

def readNumber (c : Char) (r : List Char) : Step Value :=
  let text := c :: r.takeWhile isNumberChar
  match number? text with
  | some value => .ok (value, r.dropWhile isNumberChar)
  | none => .error ⟨.number (.ofList text), c :: r⟩

theorem readNumber_length_le {c : Char} {r rest : List Char} {value : Value}
    (h : readNumber c r = .ok (value, rest)) : rest.length ≤ r.length := by
  unfold readNumber at h
  dsimp only at h
  split at h
  · cases h
    exact (List.dropWhile_suffix _).length_le
  · contradiction

/--
The characters that a bare word goes on with.
-/
def isNameChar (c : Char) : Bool :=
  c.isAlphanum || c == '_'

def wordValue? (word : String) : Option Value :=
  if word == "null" || word == "undefined" then some .null
  else if word == "true" then some (.boolean true)
  else if word == "false" then some (.boolean false)
  else none

def readWord (c : Char) (r : List Char) : Step Value :=
  let word := String.ofList (c :: r.takeWhile isNameChar)
  match wordValue? word with
  | some value => .ok (value, r.dropWhile isNameChar)
  | none => .error ⟨.word word, c :: r⟩

theorem readWord_length_le {c : Char} {r rest : List Char} {value : Value}
    (h : readWord c r = .ok (value, rest)) : rest.length ≤ r.length := by
  unfold readWord at h
  dsimp only at h
  split at h
  · cases h
    exact (List.dropWhile_suffix _).length_le
  · contradiction

/--
A way to read something that never succeeds without taking at least one character.
-/
structure Reader (α : Type) where
  read : List Char → Step α
  length_lt : ∀ {s a r}, read s = .ok (a, r) → r.length < s.length

/--
Read the items of an array behind its opening bracket. A comma may stand behind the last item.
`items` holds what was read so far, last item first.
-/
def readItems (item : Reader Value) (s : List Char) (items : List Value) : Step (List Value) :=
  match _hbefore : skipTrivia s with
  | .error fault => .error fault
  | .ok (']' :: r) => .ok (items.reverse, r)
  | .ok start =>
    match _hread : item.read start with
    | .error fault => .error fault
    | .ok (value, r) =>
      match _hbehind : skipTrivia r with
      | .error fault => .error fault
      | .ok [] => .error ⟨.openArray, []⟩
      | .ok (',' :: next) => readItems item next (value :: items)
      | .ok (']' :: next) => .ok ((value :: items).reverse, next)
      | .ok (c :: next) => .error ⟨.separator c, c :: next⟩
termination_by s.length
decreasing_by
  have := skipTrivia_length_le _hbefore
  have := item.length_lt _hread
  have hbehind := skipTrivia_length_le _hbehind
  rw [List.length_cons] at hbehind
  omega

theorem readItems_length_lt {item : Reader Value} {s r : List Char} {items values : List Value}
    (h : readItems item s items = .ok (values, r)) : r.length < s.length := by
  fun_induction readItems item s items with
  | case1 => contradiction
  | case2 s items rest hbefore =>
    cases h
    exact skipTrivia_length_le hbefore
  | case3 => contradiction
  | case4 => contradiction
  | case5 => contradiction
  | case6 s items start _ hbefore value r hread next hbehind ih =>
    have := skipTrivia_length_le hbefore
    have := item.length_lt hread
    have hnext := skipTrivia_length_le hbehind
    have := ih h
    rw [List.length_cons] at hnext
    omega
  | case7 s items start _ hbefore value r hread next hbehind =>
    have := skipTrivia_length_le hbefore
    have := item.length_lt hread
    have hnext := skipTrivia_length_le hbehind
    cases h
    rw [List.length_cons] at hnext
    omega
  | case8 => contradiction

/--
Read a value, the items of an array with `item?`. Where there is none no array may start.
-/
def readValue (item? : Option (Reader Value)) (s : List Char) : Step Value :=
  match s with
  | [] => .error ⟨.endOfText, []⟩
  | c :: r =>
    if c = '[' then
      match item? with
      | none => .error ⟨.nesting, c :: r⟩
      | some item => mapRead .array (readItems item r [])
    else if c = '"' ∨ c = '\'' then
      mapRead (.string ∘ .ofList) (stringBody c r [])
    else if c = '-' ∨ c.isDigit then
      readNumber c r
    else if c.isAlpha then
      readWord c r
    else
      .error ⟨.character c, c :: r⟩

theorem readValue_length_lt {item? : Option (Reader Value)} {s r : List Char} {value : Value}
    (h : readValue item? s = .ok (value, r)) : r.length < s.length := by
  unfold readValue at h
  split at h
  · contradiction
  · next c s =>
    split at h
    · split at h
      · contradiction
      · obtain ⟨_, hitems, _⟩ := mapRead_eq_ok h
        exact Nat.lt_succ_of_lt (readItems_length_lt hitems)
    · split at h
      · obtain ⟨_, hbody, _⟩ := mapRead_eq_ok h
        exact Nat.lt_succ_of_lt (stringBody_length_lt hbody)
      · split at h
        · exact Nat.lt_succ_of_le (readNumber_length_le h)
        · split at h
          · exact Nat.lt_succ_of_le (readWord_length_le h)
          · contradiction

/--
The reader for values in which arrays lie at most `depth` deep inside each other.
-/
def valueReader : Nat → Reader Value
  | 0 => ⟨readValue none, readValue_length_lt⟩
  | depth + 1 => ⟨readValue (some (valueReader depth)), readValue_length_lt⟩

/--
Skip a semicolon and what follows it without meaning, if there is one.
-/
def skipSemicolon : List Char → Except Fault (List Char)
  | ';' :: r => skipTrivia r
  | s => .ok s

/--
Read a text that holds a single value and otherwise only blanks, comments and at most one semicolon
behind the value.
-/
def readLiteral (s : List Char) : Except Fault Value := do
  let start ← skipTrivia s
  let (value, behind) ← (valueReader maxDepth).read start
  let behind ← skipTrivia behind
  match ← skipSemicolon behind with
  | [] => return value
  | rest => throw ⟨.trailing, rest⟩

end SymbolSearch.Literal
