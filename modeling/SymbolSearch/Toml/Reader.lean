import SymbolSearch.Toml.Integer
import SymbolSearch.Toml.Quoted

/-!
This module contains the reading of whole documents.
-/

namespace SymbolSearch.Toml

/--
The characters of names without quotes.
-/
def isBareChar (c : Char) : Bool :=
  c.isAlphanum || c == '_' || c == '-'

def readName (s : List Char) : Step String :=
  match s with
  | [] => none
  | '"' :: r => lineString '"' r []
  | '\'' :: r => lineString '\'' r []
  | c :: r =>
    if isBareChar c then
      some (.ofList (c :: r.takeWhile isBareChar), r.dropWhile isBareChar)
    else
      none

theorem readName_length_lt {name : String} {s r : List Char} (h : readName s = some (name, r)) :
    r.length < s.length := by
  unfold readName at h
  split at h
  · contradiction
  · exact Nat.lt_succ_of_lt (lineString_length_lt h)
  · exact Nat.lt_succ_of_lt (lineString_length_lt h)
  · next c s _ _ =>
    split at h
    · cases h
      exact Nat.lt_succ_of_le (List.dropWhile_suffix _).length_le
    · contradiction

/--
Read a key and the blanks behind it. There may be blanks around the full stops between names.
-/
def readKey (s : List Char) : Step Key :=
  match _hname : readName s with
  | none => none
  | some (name, r) =>
    match _hblanks : skipBlanks r with
    | '.' :: next =>
      match readKey (skipBlanks next) with
      | none => none
      | some (names, rest) => some (name :: names, rest)
    | rest => some ([name], rest)
termination_by s.length
decreasing_by
  have := readName_length_lt _hname
  have hbehind := skipBlanks_length_le r
  have := skipBlanks_length_le next
  rw [_hblanks, List.length_cons] at hbehind
  omega

theorem readKey_length_lt {key : Key} {s r : List Char} (h : readKey s = some (key, r)) :
    r.length < s.length := by
  fun_induction readKey s generalizing key r with
  | case1 => contradiction
  | case2 => contradiction
  | case3 s name t hname next hblanks names rest hkey ih =>
    have := readName_length_lt hname
    have hbehind := skipBlanks_length_le t
    have := skipBlanks_length_le next
    have := ih hkey
    rw [hblanks, List.length_cons] at hbehind
    cases h
    omega
  | case4 s name t hname _ =>
    cases h
    exact Nat.lt_of_le_of_lt (skipBlanks_length_le t) (readName_length_lt hname)

/--
A way to read a value that never succeeds without taking at least one character.
-/
structure ValueReader where
  read : List Char → Step Value
  length_lt : ∀ {s value r}, read s = some (value, r) → r.length < s.length

/--
Read the items of an array behind its opening bracket. A comma may stand behind the last item.
`items` holds what was read so far, last item first.
-/
def readItems (item : ValueReader) (s : List Char) (items : List Value) : Step (List Value) :=
  match _hbefore : skipLayout s with
  | ']' :: r => some (items.reverse, r)
  | start =>
    match _hread : item.read start with
    | none => none
    | some (value, r) =>
      match _hbehind : skipLayout r with
      | ',' :: next => readItems item next (value :: items)
      | ']' :: next => some ((value :: items).reverse, next)
      | _ => none
termination_by s.length
decreasing_by
  have hbefore := skipLayout_length_le s
  have := item.length_lt _hread
  have hbehind := skipLayout_length_le r
  rw [_hbefore] at hbefore
  rw [_hbehind, List.length_cons] at hbehind
  omega

theorem readItems_length_lt {item : ValueReader} {s r : List Char} {items values : List Value}
    (h : readItems item s items = some (values, r)) : r.length < s.length := by
  fun_induction readItems item s items with
  | case1 s items rest hbefore =>
    have hlt := skipLayout_length_le s
    rw [hbefore] at hlt
    cases h
    exact hlt
  | case2 => contradiction
  | case3 s items value t next hbehind _ hread ih =>
    have := skipLayout_length_le s
    have := item.length_lt hread
    have hnext := skipLayout_length_le t
    have := ih h
    rw [hbehind, List.length_cons] at hnext
    omega
  | case4 s items value t next hbehind _ hread =>
    have := skipLayout_length_le s
    have := item.length_lt hread
    have hnext := skipLayout_length_le t
    rw [hbehind, List.length_cons] at hnext
    cases h
    omega
  | case5 => contradiction

/--
Something that means nothing where it stands and is skipped there.
-/
structure Gap where
  skip : List Char → List Char
  length_le : ∀ s, (skip s).length ≤ s.length

/--
The gap within a line.
-/
def Gap.blanks : Gap :=
  ⟨skipBlanks, skipBlanks_length_le⟩

/--
The gap inside brackets and braces, which may reach over several lines.
-/
def Gap.layout : Gap :=
  ⟨skipLayout, skipLayout_length_le⟩

/--
Read a key, an equals sign and a value, with gaps on both sides of the equals sign.
-/
def readAssignment (gap : Gap) (value : ValueReader) (s : List Char) : Step (Key × Value) :=
  match readKey s with
  | none => none
  | some (key, r) =>
    match gap.skip r with
    | '=' :: r => mapRead (key, ·) (value.read (gap.skip r))
    | _ => none

theorem readAssignment_length_lt {gap : Gap} {value : ValueReader} {s r : List Char}
    {field : Key × Value} (h : readAssignment gap value s = some (field, r)) :
    r.length < s.length := by
  unfold readAssignment at h
  split at h
  · contradiction
  · next key behind hkey =>
    split at h
    · next start hequals =>
      obtain ⟨_, hread, _⟩ := mapRead_eq_some h
      have := readKey_length_lt hkey
      have hbehind := gap.length_le behind
      have := gap.length_le start
      have := value.length_lt hread
      rw [hequals, List.length_cons] at hbehind
      omega
    · contradiction

/--
Read the fields of a table behind its opening brace. A comma may stand behind the last field.
`fields` holds what was read so far, last field first.
-/
def readFields (value : ValueReader) (s : List Char) (fields : List (Key × Value)) :
    Step (List (Key × Value)) :=
  match _hbefore : skipLayout s with
  | '}' :: r => some (fields.reverse, r)
  | start =>
    match _hread : readAssignment .layout value start with
    | none => none
    | some (field, r) =>
      match _hbehind : skipLayout r with
      | ',' :: next => readFields value next (field :: fields)
      | '}' :: next => some ((field :: fields).reverse, next)
      | _ => none
termination_by s.length
decreasing_by
  have hbefore := skipLayout_length_le s
  have := readAssignment_length_lt _hread
  have hbehind := skipLayout_length_le r
  rw [_hbefore] at hbefore
  rw [_hbehind, List.length_cons] at hbehind
  omega

/--
The characters of values without quotes or brackets.
-/
def isBareValueChar (c : Char) : Bool :=
  isBareChar c || c == '+' || c == '.' || c == ':'

/--
Read a value. The parts of arrays and tables are read with `part?`; where there is none neither may
start.
-/
def readValue (part? : Option ValueReader) (s : List Char) : Step Value :=
  match s, part? with
  | [], _ => none
  | '"' :: r, _ => mapRead .string (quotedString '"' r)
  | '\'' :: r, _ => mapRead .string (quotedString '\'' r)
  | '[' :: r, some item => mapRead .array (readItems item r [])
  | '{' :: r, some value => mapRead .table (readFields value r [])
  | c :: r, _ =>
    match integer? (c :: r.takeWhile isBareValueChar) with
    | some n => some (.integer n, r.dropWhile isBareValueChar)
    | none => none

theorem readFields_length_lt {value : ValueReader} {s r : List Char}
    {fields all : List (Key × Value)} (h : readFields value s fields = some (all, r)) :
    r.length < s.length := by
  fun_induction readFields value s fields with
  | case1 s fields rest hbefore =>
    have hlt := skipLayout_length_le s
    rw [hbefore] at hlt
    cases h
    exact hlt
  | case2 => contradiction
  | case3 s fields field t next hbehind _ hread ih =>
    have := skipLayout_length_le s
    have := readAssignment_length_lt hread
    have hnext := skipLayout_length_le t
    have := ih h
    rw [hbehind, List.length_cons] at hnext
    omega
  | case4 s fields field t next hbehind _ hread =>
    have := skipLayout_length_le s
    have := readAssignment_length_lt hread
    have hnext := skipLayout_length_le t
    rw [hbehind, List.length_cons] at hnext
    cases h
    omega
  | case5 => contradiction

theorem readValue_length_lt {part? : Option ValueReader} {s r : List Char} {value : Value}
    (h : readValue part? s = some (value, r)) : r.length < s.length := by
  unfold readValue at h
  split at h
  · contradiction
  · obtain ⟨_, hread, _⟩ := mapRead_eq_some h
    exact Nat.lt_succ_of_lt (quotedString_length_lt hread)
  · obtain ⟨_, hread, _⟩ := mapRead_eq_some h
    exact Nat.lt_succ_of_lt (quotedString_length_lt hread)
  · obtain ⟨_, hread, _⟩ := mapRead_eq_some h
    exact Nat.lt_succ_of_lt (readItems_length_lt hread)
  · obtain ⟨_, hread, _⟩ := mapRead_eq_some h
    exact Nat.lt_succ_of_lt (readFields_length_lt hread)
  · split at h
    · cases h
      exact Nat.lt_succ_of_le (List.dropWhile_suffix _).length_le
    · contradiction

/--
How deep arrays and tables may lie inside each other.
-/
def maxDepth : Nat :=
  80

/--
The reader for values in which arrays and tables lie at most `depth` deep inside each other.
-/
def valueReader : Nat → ValueReader
  | 0 => ⟨readValue none, readValue_length_lt⟩
  | depth + 1 => ⟨readValue (some (valueReader depth)), readValue_length_lt⟩

def readStatement (s : List Char) : Step Statement :=
  match s with
  | '[' :: '[' :: r =>
    match readKey (skipBlanks r) with
    | some (key, ']' :: ']' :: rest) => some (.element key, rest)
    | _ => none
  | '[' :: r =>
    match readKey (skipBlanks r) with
    | some (key, ']' :: rest) => some (.table key, rest)
    | _ => none
  | _ =>
    mapRead (fun (key, value) => .assignment key value)
      (readAssignment .blanks (valueReader maxDepth) s)

theorem readStatement_length_lt {s r : List Char} {statement : Statement}
    (h : readStatement s = some (statement, r)) : r.length < s.length := by
  unfold readStatement at h
  split at h
  · next t =>
    have := skipBlanks_length_le t
    split at h
    · next hkey =>
      have hlt := readKey_length_lt hkey
      cases h
      rw [List.length_cons, List.length_cons] at *
      omega
    · contradiction
  · next t _ =>
    have := skipBlanks_length_le t
    split at h
    · next hkey =>
      have hlt := readKey_length_lt hkey
      cases h
      rw [List.length_cons] at *
      omega
    · contradiction
  · obtain ⟨_, hread, _⟩ := mapRead_eq_some h
    exact readAssignment_length_lt hread

/--
Read the statements of a document, each of them on a line of its own. `statements` holds what was
read so far, last statement first.
-/
def readStatements (s : List Char) (statements : List Statement) : Option (List Statement) :=
  match _hlayout : skipLayout s with
  | [] => some statements.reverse
  | start =>
    match _hread : readStatement start with
    | none => none
    | some (statement, r) =>
      match _hline : afterLine? r with
      | none => none
      | some next => readStatements next (statement :: statements)
termination_by s.length
decreasing_by
  have hlayout := skipLayout_length_le s
  have := readStatement_length_lt _hread
  have := afterLine?_length_le _hline
  rw [_hlayout] at hlayout
  omega

def readDocument (s : List Char) : Option (List Statement) :=
  match s with
  | '\uFEFF' :: r => readStatements r []
  | _ => readStatements s []

end SymbolSearch.Toml
