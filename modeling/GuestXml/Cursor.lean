import GuestXml.Error
import GuestXml.Xml.Tree

/-!
# Cursors

A cursor stands in a tree while a value is read from it. It keeps a stack of the elements
entered, the innermost on top, and for each of them how much of its content has been
consumed. Child elements are consumed front to back; text between them does not count.
A mark remembers a depth and how much of the element there was consumed, so that a failed
attempt can be undone.
-/

namespace GuestXml

open Xml (Element Node)

/-- An entered element, and the index of its first node that is not consumed. -/
structure Frame where
  element : Element
  next : Nat := 0
  deriving DecidableEq

/-- A position to come back to. -/
structure Mark where
  depth : Nat
  next : Nat
  deriving DecidableEq, Repr

/-- A position in a tree: the current element, and the elements around it from the
innermost outwards. -/
structure Cursor where
  top : Frame
  outer : List Frame := []
  maxDepth : Nat
  deriving DecidableEq

/-- The nodes not consumed. -/
def Frame.rest (f : Frame) : List Node :=
  f.element.children.drop f.next

/-- The child elements not consumed. -/
def Frame.remaining (f : Frame) : List Element :=
  f.rest.filterMap Node.element?

/-- Consumes the next child element, if there is one. -/
def Frame.advance (f : Frame) : Frame :=
  match f.rest.findIdx? (·.element?.isSome) with
  | some i => { f with next := f.next + i + 1 }
  | none => f

namespace Cursor

/-- A cursor on the root of a tree. A limit of zero counts as one. -/
def start (root : Element) (maxDepth : Nat) : Cursor :=
  { top := { element := root }, maxDepth := max maxDepth 1 }

/-- The element the cursor stands on. -/
def current (c : Cursor) : Element :=
  c.top.element

/-- The number of elements entered, the root included. -/
def depth (c : Cursor) : Nat :=
  c.outer.length + 1

/-- The child elements of the current element that are not consumed. -/
def remaining (c : Cursor) : List Element :=
  c.top.remaining

/-- The next child element. -/
def peek? (c : Cursor) : Option Element :=
  c.remaining.head?

/-- Consumes the next child element. -/
def advance (c : Cursor) : Cursor :=
  { c with top := c.top.advance }

/-- Steps into a child, unless that nests too deeply. -/
def enter (c : Cursor) (child : Element) : Except Error Cursor :=
  if c.maxDepth ≤ c.depth then .error (.depthExceeded c.maxDepth)
  else .ok { c with top := { element := child }, outer := c.top :: c.outer }

/-- Steps back to the parent; at the root nothing happens. -/
def leave (c : Cursor) : Cursor :=
  match c.outer with
  | [] => c
  | f :: r => { c with top := f, outer := r }

/-- Steps back a number of times. -/
def leaveTimes : Nat → Cursor → Cursor
  | 0, c => c
  | n + 1, c => leaveTimes n c.leave

/-- The current position. -/
def mark (c : Cursor) : Mark :=
  { depth := c.depth, next := c.top.next }

/-- Goes back to a position: steps back to its depth and takes what it remembers as
consumed there. -/
def rewind (c : Cursor) (m : Mark) : Cursor :=
  let back := c.leaveTimes (c.depth - m.depth)
  { back with top := { back.top with next := m.next } }

end Cursor

end GuestXml
