import SymbolSearch.Literal.Fault
import SymbolSearch.Text.Slice

/-!
This module contains a cursor that scans a text by places counted in bytes. It can be put at any
place, but only what lies between two boundaries can be cut out of the text; a scan that tries
anything else breaks off. So does a loop that goes on without getting nearer to the end. All that
happens in a scan is recorded.
-/

namespace SymbolSearch.Literal

/--
A text to scan. Faults are told from `base` on, the place at which it stands in a larger text.
-/
structure Source where
  text : List Char
  base : Nat

def Source.size (source : Source) : Nat :=
  Text.byteLength source.text

/--
A place in a text and how many arrays are open there.
-/
structure Cursor where
  place : Nat
  depth : Nat
  deriving Repr, DecidableEq

/--
What happens in a scan.
-/
inductive Event
  /-- The cursor is put at a place. -/
  | move (place : Nat)
  /-- The text between two places is cut out. -/
  | slice (start stop : Nat)
  /-- A round of a loop ends, but not the loop. -/
  | round (before after : Cursor)
  /-- A scanner that was called ends, with a value or not. -/
  | call (before after : Cursor)
  deriving Repr, DecidableEq

/--
Whether an event does no harm: all places are boundaries, a loop gets on, and a scanner neither goes
back behind its start nor changes how many arrays are open.
-/
def Event.IsSafe (text : List Char) : Event → Prop
  | move place => Text.IsBoundary text place
  | slice start stop => start ≤ stop ∧ Text.IsBoundary text start ∧ Text.IsBoundary text stop
  | round before after => before.place < after.place
  | call before after => before.place ≤ after.place ∧ before.depth = after.depth

/--
Why a scan ends without a value.
-/
inductive Halt
  | fault (offset : Nat) (cause : Cause)
  /-- No part of the text lies between two places, or a number would fall below zero. -/
  | broken
  /-- A loop goes on where it was, or arrays are entered without end. -/
  | stuck
  deriving Repr, DecidableEq

/--
The cursor, and all that has happened, last event first.
-/
structure Scan.State where
  cursor : Cursor := ⟨0, 0⟩
  events : List Event := [.move 0]
  deriving Repr, DecidableEq

abbrev Scan :=
  ReaderT Source (EStateM Halt Scan.State)

namespace Scan

def State.record (s : State) (event : Event) : State :=
  { s with events := event :: s.events }

/--
The number of bytes from the cursor to the end of the text.
-/
def State.left (source : Source) (s : State) : Nat :=
  source.size - s.cursor.place

def place : Scan Nat := do
  return (← get).cursor.place

def depth : Scan Nat := do
  return (← get).cursor.depth

/--
Put the cursor at a place. Nothing else in a scan does.
-/
def moveTo (place : Nat) : Scan Unit :=
  modify fun s => { s.record (.move place) with cursor.place := place }

def advance (n : Nat) : Scan Unit := do
  moveTo ((← place) + n)

def retreat (n : Nat) : Scan Unit := do
  if n ≤ (← place) then
    moveTo ((← place) - n)
  else
    throw .broken

def fail (cause : Cause) : Scan α := do
  throw (.fault ((← read).base + (← place)) cause)

def slice (start stop : Nat) : Scan (List Char) := do
  modify (·.record (.slice start stop))
  match Text.slice? (← read).text start stop with
  | some part => return part
  | none => throw .broken

/--
The text from `n` bytes behind the cursor on.
-/
def restFrom (n : Nat) : Scan (List Char) := do
  slice ((← place) + n) (← read).size

def rest : Scan (List Char) :=
  restFrom 0

/--
The next `n` bytes.
-/
def front (n : Nat) : Scan (List Char) := do
  slice (← place) ((← place) + n)

/--
The next `n` bytes, if they are a part of the text.
-/
def front? (n : Nat) : Scan (Option (List Char)) := do
  match Text.splitBytes? n (← rest) with
  | some _ => some <$> front n
  | none => return none

/--
The next characters that belong to a class.
-/
def row (p : Char → Bool) : Scan (List Char) := do
  let rest ← rest
  front ((Text.find? (!p ·) rest).getD (Text.byteLength rest))

def peek : Scan (Option Char) := do
  return (← rest).head?

/--
Go past the next character, if there is one.
-/
def bump : Scan (Option Char) := do
  match ← peek with
  | some c =>
    advance c.utf8Size
    return some c
  | none => return none

def call (scan : Scan α) : Scan α := fun source before =>
  match scan source before with
  | .ok a after => .ok a (after.record (.call before.cursor after.cursor))
  | .error halt after => .error halt (after.record (.call before.cursor after.cursor))

def enter : Scan Unit :=
  modify fun s => { s with cursor.depth := s.cursor.depth + 1 }

def leave : Scan Unit := do
  if (← depth) = 0 then
    throw .broken
  else
    modify fun s => { s with cursor.depth := s.cursor.depth - 1 }

/--
Scan inside of one more array, and leave it whatever comes of the scan.
-/
def nested (scan : Scan α) : Scan α := do
  enter
  let a ←
    try
      scan
    catch halt =>
      leave
      throw halt
  leave
  return a

/--
Repeat a scanner until it is done.
-/
def loop (body : β → Scan (ForInStep β)) (b : β) : Scan β := fun source before =>
  match body b source before with
  | .ok (.done b) after => .ok b after
  | .ok (.yield b) after =>
    if after.left source < before.left source then
      loop body b source (after.record (.round before.cursor after.cursor))
    else
      .error .stuck (after.record (.round before.cursor after.cursor))
  | .error halt after => .error halt after
termination_by source before => before.left source

end Scan

end SymbolSearch.Literal
