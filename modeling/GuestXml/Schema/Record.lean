import GuestXml.Schema.Content
import GuestXml.Schema.Scalar

/-!
# Members and alternatives

A group is described by its members in the order in which they are written. A member maps
a field of a value to an attribute, to the element's own text or to child elements; some
members fix what has to be there and carry no value. A choice is described by its
alternatives in the order in which they are tried. The values of a description are tuples
and sums; a record and its variants tie them to the structures they describe, both ways and
without loss.
-/

namespace GuestXml.Schema

/-- What a member of a group maps to. -/
inductive Field where
  /-- A required attribute. -/
  | attr (name : String) (s : Scalar)
  /-- An attribute that may be missing. -/
  | optionalAttr (name : String) (s : Scalar)
  /-- A required attribute with one possible value. -/
  | constant (name value : String)
  /-- The element's own text. -/
  | text (s : Scalar)
  /-- The element's own text, missing if it is empty. -/
  | optionalText (s : Scalar)
  /-- A required child element that holds a scalar. -/
  | valueElement (name : String) (s : Scalar)
  /-- A child element that holds a scalar and may be missing. -/
  | optionalValueElement (name : String) (s : Scalar)
  /-- Child elements that hold scalars, of which there have to be so many. -/
  | valueElements (name : String) (min : Nat) (s : Scalar)
  /-- Nothing at all: no attributes, no child elements and no text but blanks. -/
  | noContent
  /-- A child element that says yes by being there. -/
  | flag (name : String)
  /-- A required child element. -/
  | element (name : String) (t : Content)
  /-- A child element that may be missing. -/
  | optionalElement (name : String) (t : Content)
  /-- Child elements, of which there have to be so many. -/
  | elements (name : String) (min : Nat) (t : Content)
  deriving DecidableEq, Repr

/-- The values of a member. -/
@[reducible] def Field.Carrier : Field → Type
  | attr _ s => s.Carrier
  | optionalAttr _ s => Option s.Carrier
  | constant _ _ => Unit
  | text s => s.Carrier
  | optionalText s => Option s.Carrier
  | valueElement _ s => s.Carrier
  | optionalValueElement _ s => Option s.Carrier
  | valueElements _ _ s => List s.Carrier
  | noContent => Unit
  | flag _ => Bool
  | element _ t => t.Carrier
  | optionalElement _ t => Option t.Carrier
  | elements _ _ t => List t.Carrier

/-- A member of a group, with the name its value has where values are shown. -/
structure Member where
  key : String
  field : Field
  deriving DecidableEq, Repr

/-- A member that carries no value. -/
@[reducible] def Member.fixed (f : Field) : Member :=
  { key := "", field := f }

/-- The values of all members. -/
@[reducible] def Tuple : List Member → Type
  | [] => Unit
  | m :: ms => m.field.Carrier × Tuple ms

/-- The members of a structure. -/
structure Record (α : Type) where
  members : List Member
  toTuple : α → Tuple members
  ofTuple : Tuple members → α
  ofTuple_toTuple : ∀ a, ofTuple (toTuple a) = a
  toTuple_ofTuple : ∀ t, toTuple (ofTuple t) = t

/-- An alternative of a choice. -/
inductive Alternative where
  /-- The members of a group, in the element that is read already. -/
  | group (name : String) (g : Group)
  /-- A child element with a tag. -/
  | element (name tag : String) (t : Content)
  deriving DecidableEq, Repr

namespace Alternative

/-- The values of an alternative. -/
@[reducible] def Carrier : Alternative → Type
  | group _ g => g.Carrier
  | element _ _ t => t.Carrier

/-- The name of an alternative. -/
def name : Alternative → String
  | group name _ => name
  | element name _ _ => name

/-- The tag of the child element, if the alternative is one. -/
def tag? : Alternative → Option String
  | group _ _ => none
  | element _ tag _ => some tag

/-- The type of an alternative. -/
def content : Alternative → Content
  | group _ g => .group g
  | element _ _ t => t

end Alternative

/-- The values of all alternatives. -/
@[reducible] def AnyOf : List Alternative → Type
  | [] => Empty
  | a :: as => a.Carrier ⊕ AnyOf as

/-- The place of the alternative a value belongs to. -/
def AnyOf.index : {as : List Alternative} → AnyOf as → Nat
  | _ :: _, .inl _ => 0
  | _ :: _, .inr v => index v + 1

/-- The alternatives of an inductive type. -/
structure Variants (α : Type) where
  alternatives : List Alternative
  toAny : α → AnyOf alternatives
  ofAny : AnyOf alternatives → α
  ofAny_toAny : ∀ a, ofAny (toAny a) = a
  toAny_ofAny : ∀ v, toAny (ofAny v) = v

/-- The members of a structure that goes on with any number of alternatives. -/
structure SeriesRecord (α : Type) where
  members : List Member
  key : String
  choice : Choice
  min : Nat
  toParts : α → Tuple members × List choice.Carrier
  ofParts : Tuple members × List choice.Carrier → α
  ofParts_toParts : ∀ a, ofParts (toParts a) = a
  toParts_ofParts : ∀ p, toParts (ofParts p) = p

end GuestXml.Schema
