import GuestXml.Json
import GuestXml.Schema.Levels
import GuestXml.Schema.Tables

/-!
# Values as JSON

A value is shown as an object with a member for each member of its type, under the member's
key and in the type's order. Members that carry no value are left out, and a value of a type
without any is null. A choice is shown as what was chosen alone, and a series shows its
entries as one more member, an array.
-/

namespace GuestXml.Schema

section Members

-- How the content of a child element is shown.
variable (child : (t : Content) → t.Carrier → Json)

/-- The value of a member; nothing if it carries none. -/
def showField : (f : Field) → f.Carrier → Option Json
  | .attr _ s, v => some (s.toJson v)
  | .optionalAttr _ s, v => some (Json.optional s.toJson v)
  | .constant _ _, _ => none
  | .text s, v => some (s.toJson v)
  | .optionalText s, v => some (Json.optional s.toJson v)
  | .valueElement _ s, v => some (s.toJson v)
  | .optionalValueElement _ s, v => some (Json.optional s.toJson v)
  | .valueElements _ _ s, vs => some (.array (vs.map s.toJson))
  | .noContent, _ => none
  | .flag _, v => some (.bool v)
  | .element _ t, v => some (child t v)
  | .optionalElement _ t, v => some (Json.optional (child t) v)
  | .elements _ _ t, vs => some (.array (vs.map (child t)))

/-- The members with a value. -/
def showTuple : (ms : List Member) → Tuple ms → List (String × Json)
  | [], _ => []
  | m :: ms, (v, vs) =>
    ((showField child m.field v).map fun j => (m.key, j)).toList ++ showTuple ms vs

/-- A group as an object, or as null if it has no members with a value. -/
def showGroup (g : Group) (v : g.Carrier) : Json :=
  match showTuple child g.record.members (g.record.toTuple v) with
  | [] => .null
  | members => .object members

/-- What was chosen. -/
def showAny : (as : List Alternative) → AnyOf as → Json
  | .group _ g :: _, .inl v => showGroup child g v
  | .element _ _ t :: _, .inl v => child t v
  | _ :: as, .inr v => showAny as v

/-- A choice as what was chosen. -/
def showChoice (c : Choice) (v : c.Carrier) : Json :=
  showAny child c.variants.alternatives (c.variants.toAny v)

/-- A value of a content type. -/
def showContent : (t : Content) → t.Carrier → Json
  | .group g, v => showGroup child g v
  | .choice c, v => showChoice child c v
  | .series s, v =>
    let (values, entries) := s.record.toParts v
    .object (showTuple child s.record.members values ++
      [(s.record.key, .array (entries.map (showChoice child s.record.choice)))])

end Members

/-- A value that takes a number of levels at most. -/
def showLevels : (levels : Nat) → (t : Content) → t.Carrier → Json
  | 0, _, _ => .null
  | n + 1, t, v => showContent (showLevels n) t v

/-- A value as JSON. -/
def Content.toJson (t : Content) (v : t.Carrier) : Json :=
  showLevels (t.levels v) t v

end GuestXml.Schema
