import GuestXml.Cursor
import GuestXml.Fallible

/-!
# Reading an element

What has to be remembered while the members of an element are read: the position in the
tree, how many elements have been consumed, and which child elements were asked for.
Children are read front to back: a member looks at the next child only. A child that is
still there in the end is out of order if a member asked for its name, and unknown
otherwise.
-/

namespace GuestXml.Schema

open Xml (Element)

/-- How far the reading of a tree has come. -/
structure Reading where
  cursor : Cursor
  /-- Whether a child that no member asks for is an error. -/
  denyUnknown : Bool
  /-- The number of elements consumed, at any depth. -/
  consumed : Nat := 0
  /-- The names asked for, each with the depth it was asked for at, latest first. -/
  requested : List (Nat × String) := []
  deriving DecidableEq

/-- A point of a reading to come back to. -/
structure ReadingMark where
  cursor : Mark
  consumed : Nat
  requested : Nat
  deriving DecidableEq, Repr

/-- Steps of reading. -/
abbrev ReadM (α : Type) : Type :=
  Fallible Reading α

namespace Reading

/-- The start of a reading at the root of a tree. -/
def start (root : Element) (maxDepth : Nat) (denyUnknown : Bool) : Reading :=
  { cursor := Cursor.start root maxDepth, denyUnknown }

/-- The element that is read. -/
def current (r : Reading) : Element :=
  r.cursor.current

/-- The present point. -/
def mark (r : Reading) : ReadingMark :=
  { cursor := r.cursor.mark, consumed := r.consumed, requested := r.requested.length }

/-- Goes back to a point. -/
def rewind (r : Reading) (m : ReadingMark) : Reading :=
  { r with
    cursor := r.cursor.rewind m.cursor
    consumed := m.consumed
    requested := r.requested.drop (r.requested.length - m.requested) }

/-- Notes that a name is asked for here, unless it was asked for just before. -/
def request (r : Reading) (name : String) : Reading :=
  let entry := (r.cursor.depth, name)
  if r.requested.head? = some entry then r else { r with requested := entry :: r.requested }

/-- Whether a member of the current element asked for a name. -/
def wasRequested (r : Reading) (name : String) : Bool :=
  (r.requested.takeWhile (·.1 == r.cursor.depth)).any (·.2 == name)

/-- Steps back out of a child, and forgets what was asked for inside it. -/
def leave (r : Reading) : Reading :=
  let cursor := r.cursor.leave
  { r with cursor, requested := r.requested.dropWhile (cursor.depth < ·.1) }

/-- Counts the next child as consumed. -/
def consume (r : Reading) : Reading :=
  { r with cursor := r.cursor.advance, consumed := r.consumed + 1 }

/-- What is wrong with a child that is left over, if anything is. -/
def fault? (r : Reading) (child : Element) : Option Error :=
  if r.wasRequested child.name then some (.outOfOrder r.current.name child.name)
  else if r.denyUnknown then some (.unexpectedElement r.current.name child.name)
  else none

/-- What is wrong with the first child that is left over wrongly. -/
def leftover? (r : Reading) : Option Error :=
  r.cursor.remaining.findSome? r.fault?

end Reading

/-! ### Steps -/

/-- The error of a child element that has to be there. -/
def missing {α : Type} (name : String) : ReadM α := fun r =>
  (.error (.missingElement r.current.name name), r)

/-- Asks for a child: the next one, if it has the name. -/
def nextNamed? (name : String) : ReadM (Option Element) := fun r =>
  (.ok (r.cursor.peek?.filter (·.name == name)), r.request name)

/-- Asks for any number of children: all next ones that have the name. -/
def allNamed (name : String) : ReadM (List Element) := fun r =>
  (.ok (r.cursor.remaining.takeWhile (·.name == name)), r.request name)

/-- Asks for a child that has to be there. -/
def requireNamed (name : String) : ReadM Element := do
  match ← nextNamed? name with
  | some child => return child
  | none => missing name

/-- Reads inside a child, which counts as consumed if that succeeds. -/
def withChild {α : Type} (child : Element) (read : ReadM α) : ReadM α := fun r =>
  match r.cursor.enter child with
  | .error e => (.error e, r)
  | .ok cursor =>
    match read { r with cursor } with
    | (.ok a, r') => (.ok a, r'.leave.consume)
    | (.error e, r') => (.error e, r'.leave)

/-- Checks that a list has enough members. -/
def checkMin (name : String) (min found : Nat) : ReadM Unit := fun r =>
  if found < min then (.error (.cardinality r.current.name name min found), r) else (.ok (), r)

/-- Checks that no child is left over wrongly. -/
def finishElement : ReadM Unit := fun r =>
  match r.leftover? with
  | some e => (.error e, r)
  | none => (.ok (), r)

/-- Tries to read; if that fails, everything is as before. -/
def attempt {α : Type} (read : ReadM α) : ReadM α := fun r =>
  match read r with
  | (.ok a, r') => (.ok a, r')
  | (.error e, r') => (.error e, r'.rewind r.mark)

/-- The error of a choice none of whose alternatives fits. -/
def exhausted {α : Type} (choice : String) : ReadM α := fun r =>
  (.error (.variantExhausted choice r.current.name), r)

end GuestXml.Schema
