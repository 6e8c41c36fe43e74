import GuestXml.Schema.Reading
import GuestXml.Schema.Tables

/-!
# Reading values

One reader for the whole schema: it goes through the description of a content type member
by member. The alternatives of a choice are tried in order and the first that can be read
is taken, even if a later one could be read as well. How deep the reader may descend is
counted down level by level, so that it ends on every tree.
-/

namespace GuestXml.Schema

open Xml (Element)

/-! ### Members -/

section Members

-- How the content of a child element is read, once the child has been entered.
variable (child : (t : Content) → ReadM t.Carrier)

/-- Reads a scalar that is the text of a child element. -/
def readValue (s : Scalar) : ReadM s.Carrier := do
  let value ← Fallible.ofExcept (s.decode (← Fallible.view (·.current.text)))
  finishElement
  return value

/-- Checks that the current element is empty. -/
def readNoContent : ReadM Unit := fun r =>
  let e := r.current
  let fault? : Option Error :=
    match e.attributes, r.cursor.remaining with
    | (name, _) :: _, _ => some (.unexpectedAttribute e.name name)
    | [], extra :: _ => some (.unexpectedElement e.name extra.name)
    | [], [] =>
      if Text.isBlankText e.text then none else some (.invalidValue "empty element" e.text)
  match fault? with
  | some err => (.error err, r)
  | none => (.ok (), r)

/-- Reads a member of the current element. -/
def readField : (f : Field) → ReadM f.Carrier
  | .attr name s => do
    let e ← Fallible.view (·.current)
    match e.attribute? name with
    | some text => Fallible.ofExcept (s.decode text)
    | none => Fallible.fail (.missingAttribute e.name name)
  | .optionalAttr name s => do
    match ← Fallible.view (·.current.attribute? name) with
    | some text => some <$> Fallible.ofExcept (s.decode text)
    | none => return none
  | .constant name value => do
    let e ← Fallible.view (·.current)
    match e.attribute? name with
    | some found =>
      if found = value then return ()
      else Fallible.fail (.constantMismatch e.name name value found)
    | none => Fallible.fail (.missingAttribute e.name name)
  | .text s => do
    Fallible.ofExcept (s.decode (← Fallible.view (·.current.text)))
  | .optionalText s => do
    let text ← Fallible.view (·.current.text)
    if text.isEmpty then return none else some <$> Fallible.ofExcept (s.decode text)
  | .valueElement name s => do
    withChild (← requireNamed name) (readValue s)
  | .optionalValueElement name s => do
    match ← nextNamed? name with
    | some e => some <$> withChild e (readValue s)
    | none => return none
  | .valueElements name min s => do
    let values ← (← allNamed name).mapM fun e => withChild e (readValue s)
    checkMin name min values.length
    return values
  | .noContent => readNoContent
  | .flag name => do
    match ← nextNamed? name with
    | some e => (fun _ => true) <$> withChild e finishElement
    | none => return false
  | .element name t => do
    withChild (← requireNamed name) (child t)
  | .optionalElement name t => do
    match ← nextNamed? name with
    | some e => some <$> withChild e (child t)
    | none => return none
  | .elements name min t => do
    let values ← (← allNamed name).mapM fun e => withChild e (child t)
    checkMin name min values.length
    return values

/-- Reads members in order. -/
def readTuple : (ms : List Member) → ReadM (Tuple ms)
  | [] => return ()
  | m :: ms => do
    let value ← readField child m.field
    return (value, ← readTuple ms)

/-- Reads the members of a group. -/
def readGroup (g : Group) : ReadM g.Carrier := do
  return g.record.ofTuple (← readTuple child g.record.members)

/-! ### Alternatives -/

/-- Tries to read an alternative. -/
def readAlternative : (a : Alternative) → ReadM a.Carrier
  | .group _ g => attempt (readGroup child g)
  | .element _ tag t => attempt do
    withChild (← requireNamed tag) (child t)

/-- Reads the first alternative that can be read. A fatal error ends the search. -/
def readFirst (choice : String) : (as : List Alternative) → ReadM (AnyOf as)
  | [] => exhausted choice
  | a :: as => fun r =>
    match readAlternative child a r with
    | (.ok value, r') => (.ok (.inl value), r')
    | (.error e, r') => if e.isFatal then (.error e, r') else (Sum.inr <$> readFirst choice as) r'

/-- Reads a choice. -/
def readChoice (c : Choice) : ReadM c.Carrier := do
  return c.variants.ofAny (← readFirst child c.name c.variants.alternatives)

/-- Reads a choice over and over until it cannot be read, or takes no element, or no element
is left. -/
def readWhileTaken {α : Type} (read : ReadM α) : (most : Nat) → ReadM (List α)
  | 0 => return []
  | n + 1 => fun r =>
    if r.cursor.remaining.isEmpty then (.ok [], r)
    else
      match read r with
      | (.ok value, r') =>
        if r'.consumed = r.consumed then (.ok [value], r')
        else ((value :: ·) <$> readWhileTaken read n) r'
      | (.error e, r') => if e.isFatal then (.error e, r') else (.ok [], r')

/-- The tags of the alternatives of a choice, if all have one. -/
def Choice.tags? (c : Choice) : Option (List String) :=
  c.variants.alternatives.mapM (·.tag?)

/-- Reads a choice repeatedly. If each alternative has a tag, all next children with one of
the tags are read. -/
def readChoices (c : Choice) (min : Nat) : ReadM (List c.Carrier) := do
  let remaining ← Fallible.view (·.cursor.remaining)
  let values ← match c.tags? with
    | some tags => (remaining.takeWhile (tags.contains ·.name)).mapM fun _ => readChoice child c
    | none => readWhileTaken (readChoice child c) remaining.length
  checkMin c.name min values.length
  return values

/-- Reads the members of the current element, without a look at what is left over. -/
def readContent : (t : Content) → ReadM t.Carrier
  | .group g => readGroup child g
  | .choice c => readChoice child c
  | .series s => do
    let values ← readTuple child s.record.members
    let entries ← readChoices child s.record.choice s.record.min
    return s.record.ofParts (values, entries)

end Members

/-! ### Levels -/

/-- Reads the current element, which is on the first of a number of levels. -/
def readLevels : (levels : Nat) → (t : Content) → ReadM t.Carrier
  | 0, _ => fun r => (.error (.depthExceeded r.cursor.maxDepth), r)
  | n + 1, t => do
    let value ← readContent (readLevels n) t
    finishElement
    return value

/-- How many levels there are below the current element. -/
def Reading.levelsBelow (r : Reading) : Nat :=
  r.cursor.maxDepth - r.cursor.depth

/-- Runs a reader with the reader for child elements that the depth limit admits. -/
def withChildren {α : Type} (read : ((t : Content) → ReadM t.Carrier) → ReadM α) : ReadM α :=
  fun r => read (readLevels r.levelsBelow) r

/-- Reads a member of the current element. -/
def Field.read (f : Field) : ReadM f.Carrier :=
  withChildren fun child => readField child f

/-- Reads a choice in the current element. -/
def Choice.read (c : Choice) : ReadM c.Carrier :=
  withChildren fun child => readChoice child c

/-- Reads a choice repeatedly in the current element. -/
def Choice.readMany (c : Choice) (min : Nat) : ReadM (List c.Carrier) :=
  withChildren fun child => readChoices child c min

/-- Tries to read the members of a content type from the current element. -/
def Content.tryMembers (t : Content) : ReadM t.Carrier :=
  attempt (withChildren fun child => readContent child t)

/-- Tries to read the next child, which has to have a tag. -/
def Content.tryElement (t : Content) (tag : String) : ReadM t.Carrier :=
  attempt (withChildren fun child => do withChild (← requireNamed tag) (child t))

/-- Reads the current element as a whole, and counts the elements consumed below it. -/
def Content.read (t : Content) : ReadM (t.Carrier × Nat) := fun r =>
  match readLevels (r.levelsBelow + 1) t r with
  | (.ok value, r') => (.ok (value, r'.consumed - r.consumed), r')
  | (.error e, r') => (.error e, r')

end GuestXml.Schema
