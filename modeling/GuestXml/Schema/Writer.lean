import GuestXml.Fallible
import GuestXml.Schema.Levels
import GuestXml.Schema.Tables
import GuestXml.Xml.Tree

/-!
# Writing values

One writer for the whole schema: it goes through the description of a content type member
by member and adds to an element. Every value is checked before it is written. A child
element is added when it is complete, so a failure inside it leaves nothing of it behind.
-/

namespace GuestXml.Schema

open Xml (Element)

/-- Steps of writing into an element. -/
abbrev WriteM (α : Type) : Type :=
  Fallible Element α

/-- Adds a child element, written from scratch. -/
def pushChild (name : String) (content : WriteM Unit) : WriteM Unit := fun e =>
  match content { name } with
  | (.ok _, child) => (.ok (), e.pushElement child)
  | (.error err, _) => (.error err, e)

/-- Checks that a list has enough members. -/
def checkLength (name : String) (min found : Nat) : WriteM Unit := fun e =>
  if found < min then (.error (.cardinality e.name name min found), e) else (.ok (), e)

/-- Sets an attribute to a scalar. -/
def writeAttr (name : String) (s : Scalar) (v : s.Carrier) : WriteM Unit := do
  let text ← Fallible.ofExcept (s.encode v)
  Fallible.update (·.setAttribute name text)

/-- Adds a scalar as text; the empty text adds nothing. -/
def writeText (s : Scalar) (v : s.Carrier) : WriteM Unit := do
  let text ← Fallible.ofExcept (s.encode v)
  Fallible.update fun e => if text.isEmpty then e else e.pushText text

/-- Adds a child element that holds a scalar. -/
def writeValueElement (name : String) (s : Scalar) (v : s.Carrier) : WriteM Unit :=
  pushChild name (writeText s v)

section Members

-- How the content of a child element is written.
variable (child : (t : Content) → t.Carrier → WriteM Unit)

/-- Writes a member into the current element. -/
def writeField : (f : Field) → f.Carrier → WriteM Unit
  | .attr name s, v => writeAttr name s v
  | .optionalAttr name s, v => v.forM (writeAttr name s)
  | .constant name value, _ => Fallible.update (·.setAttribute name value)
  | .text s, v => writeText s v
  | .optionalText s, v => v.forM (writeText s)
  | .valueElement name s, v => writeValueElement name s v
  | .optionalValueElement name s, v => v.forM (writeValueElement name s)
  | .valueElements name min s, vs => do
    checkLength name min vs.length
    vs.forM (writeValueElement name s)
  | .noContent, _ => return ()
  | .flag name, v => if v then pushChild name (return ()) else return ()
  | .element name t, v => pushChild name (child t v)
  | .optionalElement name t, v => v.forM fun w => pushChild name (child t w)
  | .elements name min t, vs => do
    checkLength name min vs.length
    vs.forM fun w => pushChild name (child t w)

/-- Writes members in order. -/
def writeTuple : (ms : List Member) → Tuple ms → WriteM Unit
  | [], _ => return ()
  | m :: ms, (v, vs) => do
    writeField child m.field v
    writeTuple ms vs

/-- Writes the members of a group. -/
def writeGroup (g : Group) (v : g.Carrier) : WriteM Unit :=
  writeTuple child g.record.members (g.record.toTuple v)

/-- Writes an alternative. -/
def writeAlternative : (a : Alternative) → a.Carrier → WriteM Unit
  | .group _ g, v => writeGroup child g v
  | .element _ tag t, v => pushChild tag (child t v)

/-- Writes the alternative that a value belongs to. -/
def writeAny : (as : List Alternative) → AnyOf as → WriteM Unit
  | a :: _, .inl v => writeAlternative child a v
  | _ :: as, .inr v => writeAny as v

/-- Writes a choice. -/
def writeChoice (c : Choice) (v : c.Carrier) : WriteM Unit :=
  writeAny child c.variants.alternatives (c.variants.toAny v)

/-- Writes any number of choices. -/
def writeChoices (c : Choice) (min : Nat) (vs : List c.Carrier) : WriteM Unit := do
  checkLength c.name min vs.length
  vs.forM (writeChoice child c)

/-- Writes what a content type describes. -/
def writeContent : (t : Content) → t.Carrier → WriteM Unit
  | .group g, v => writeGroup child g v
  | .choice c, v => writeChoice child c v
  | .series s, v => do
    let (values, entries) := s.record.toParts v
    writeTuple child s.record.members values
    writeChoices child s.record.choice s.record.min entries

end Members

/-- Writes a value that takes a number of levels at most. -/
def writeLevels : (levels : Nat) → (t : Content) → t.Carrier → WriteM Unit
  | 0, _, _ => Fallible.fail (.depthExceeded 0)
  | n + 1, t, v => writeContent (writeLevels n) t v

/-- Writes a value into the current element, member by member. -/
def Content.write (t : Content) (v : t.Carrier) : WriteM Unit :=
  writeLevels (t.levels v) t v

/-- Writes a member. -/
def Field.write (f : Field) (v : f.Carrier) : WriteM Unit :=
  writeField Content.write f v

/-- Writes a choice. -/
def Choice.write (c : Choice) (v : c.Carrier) : WriteM Unit :=
  writeChoice Content.write c v

/-- Writes any number of choices. -/
def Choice.writeMany (c : Choice) (min : Nat) (vs : List c.Carrier) : WriteM Unit :=
  writeChoices Content.write c min vs

/-- Writes a value into an element, which stays as it is if that fails. What is written
does not depend on what is there already. -/
def Content.writeInto (t : Content) (v : t.Carrier) (e : Element) : Except Error Element :=
  match t.write v { name := e.name } with
  | (.ok _, content) => .ok (e.append content)
  | (.error err, _) => .error err

end GuestXml.Schema
