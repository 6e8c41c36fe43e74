import GuestXml.Fallible
import GuestXml.Json
import GuestXml.Schema.Tables
import GuestXml.Text.Character

/-!
# Layouts

The layout of a content type is a table that says what its members are: what each one maps
to, under which name, how often it may occur, and of which type it is. Members that have no
place in a document of their own, such as the check that an element is empty, are left out.
It is recorded of a value: the recorder goes through the description of a content type as
the reader and the writer do. A layout is shown as text, one line to an entry, and as JSON.
-/

namespace GuestXml.Text

/-! ### Short names of types

A qualified name gives the parts that lead to a type, joined by double colons, and its type
arguments in brackets. The short name leaves out all such parts and keeps the arguments. -/

/-- The characters of a name and of the colons in it. -/
def inQualifiedName (c : Char) : Bool :=
  isAlphanumeric c || c == '_' || c == ':'

/-- What stands behind the last double colon, read from the end of the name. -/
def lastPartReversed : List Char → List Char
  | ':' :: ':' :: _ => []
  | c :: r => c :: lastPartReversed r
  | [] => []

/-- What stands behind the last double colon of a name. -/
def lastPart (name : List Char) : List Char :=
  (lastPartReversed name.reverse).reverse

/-- Shortens each name in a text; `name` is the part of a name that has been read, last
character first. -/
def shortenNames (name : List Char) : List Char → List Char
  | [] => lastPart name.reverse
  | c :: r =>
    if inQualifiedName c then shortenNames (c :: name) r
    else lastPart name.reverse ++ c :: shortenNames [] r

/-- The short name of a type. -/
def shortTypeName (qualified : String) : String :=
  String.ofList (shortenNames [] qualified.toList)

end GuestXml.Text

namespace GuestXml.Schema

/-- What an entry maps to. -/
inductive EntryKind where
  | attr
  /-- An attribute with a fixed value. -/
  | constant (value : String)
  | text
  /-- A child element that holds a scalar. -/
  | valueElement
  | flag
  | element
  | choice
  deriving DecidableEq, Repr

/-- How often an entry may occur. -/
inductive Cardinality where
  | required
  | optional
  | atLeast (min : Nat)
  deriving DecidableEq, Repr

/-- A line of a layout. -/
structure Entry where
  kind : EntryKind
  name : String
  cardinality : Cardinality
  valueType : String
  deriving DecidableEq, Repr

/-- The table of a content type. -/
structure Layout where
  /-- The tag the type is bound to, if it is. -/
  tag? : Option String
  typeName : String
  entries : List Entry
  deriving DecidableEq, Repr

/-! ### Names of types -/

/-- The short name of a content type. -/
def Content.shortName (t : Content) : String :=
  Text.shortTypeName t.qualifiedName

/-- An alternative in the type of a choice: its tag, or else its type. -/
def Alternative.label (a : Alternative) : String :=
  match a.tag? with
  | some tag => "<" ++ tag ++ ">"
  | none => a.content.shortName

/-- The type of a choice: all its alternatives. -/
def Choice.label (c : Choice) : String :=
  " | ".intercalate (c.variants.alternatives.map (·.label))

/-! ### Recording -/

/-- Steps of recording, behind the entries that have been recorded. -/
abbrev RecordM (α : Type) : Type :=
  Fallible (List Entry) α

/-- Records an entry. -/
def recordEntry (kind : EntryKind) (name : String) (cardinality : Cardinality)
    (valueType : String) : RecordM Unit :=
  Fallible.update (· ++ [⟨kind, name, cardinality, valueType⟩])

/-- Records a member. -/
def recordField : (f : Field) → f.Carrier → RecordM Unit
  | .attr name s, _ => recordEntry .attr name .required s.name
  | .optionalAttr name s, _ => recordEntry .attr name .optional s.name
  | .constant name value, _ => recordEntry (.constant value) name .required "string"
  | .text s, _ => recordEntry .text "#text" .required s.name
  | .optionalText s, _ => recordEntry .text "#text" .optional s.name
  | .valueElement name s, _ => recordEntry .valueElement name .required s.name
  | .optionalValueElement name s, _ => recordEntry .valueElement name .optional s.name
  | .valueElements name min s, _ => recordEntry .valueElement name (.atLeast min) s.name
  | .noContent, _ => return ()
  | .flag name, _ => recordEntry .flag name .optional "empty"
  | .element name t, _ => recordEntry .element name .required t.shortName
  | .optionalElement name t, _ => recordEntry .element name .optional t.shortName
  | .elements name min t, _ => recordEntry .element name (.atLeast min) t.shortName

/-- Records members in order. -/
def recordTuple : (ms : List Member) → Tuple ms → RecordM Unit
  | [], _ => return ()
  | m :: ms, (v, vs) => do
    recordField m.field v
    recordTuple ms vs

/-- Records the members of a group. -/
def recordGroup (g : Group) (v : g.Carrier) : RecordM Unit :=
  recordTuple g.record.members (g.record.toTuple v)

/-- Records a choice. -/
def recordChoice (c : Choice) (_ : c.Carrier) : RecordM Unit :=
  recordEntry .choice c.name .required c.label

/-- Records any number of choices. -/
def recordChoices (c : Choice) (min : Nat) (_ : List c.Carrier) : RecordM Unit :=
  recordEntry .choice c.name (.atLeast min) c.label

/-- Records what a content type describes. -/
def recordContent : (t : Content) → t.Carrier → RecordM Unit
  | .group g, v => recordGroup g v
  | .choice c, v => recordChoice c v
  | .series s, v => do
    let (values, entries) := s.record.toParts v
    recordTuple s.record.members values
    recordChoices s.record.choice s.record.min entries

/-- The entries recorded of a value. -/
def Content.record (t : Content) (v : t.Carrier) : List Entry :=
  (recordContent t v []).2

/-- The layout of a content type, as recorded of its default. -/
def Content.layout (t : Content) : Layout :=
  { tag? := t.tag?, typeName := t.shortName, entries := t.record default }

/-- The names of the entries. -/
def Layout.entryNames (l : Layout) : List String :=
  l.entries.map (·.name)

/-! ### Text -/

/-- The written form of a cardinality. -/
def Cardinality.toText : Cardinality → String
  | .required => "1"
  | .optional => "0..1"
  | .atLeast min => toString min ++ "..*"

/-- The first column of a layout. -/
def EntryKind.label : EntryKind → String
  | .attr => "attribute"
  | .constant value => "constant=" ++ value
  | .text => "text"
  | .valueElement => "value"
  | .flag => "flag"
  | .element => "element"
  | .choice => "choice"

/-- A text with blanks behind it up to a width. -/
def padded (width : Nat) (s : String) : String :=
  s ++ String.ofList (List.replicate (width - s.length) ' ')

/-- The line of an entry. The first two columns have a fixed width. -/
def Entry.line (e : Entry) : String :=
  "  " ++ padded 14 e.kind.label ++ " " ++ padded 20 e.name ++ " " ++ e.cardinality.toText ++
    " " ++ e.valueType

/-- The line above the entries. -/
def Layout.heading (l : Layout) : String :=
  let tag := match l.tag? with
    | some tag => "<" ++ tag ++ ">"
    | none => "(anonymous)"
  tag ++ " (" ++ l.typeName ++ ")"

/-- All lines of a layout. -/
def Layout.lines (l : Layout) : List String :=
  l.heading :: l.entries.map (·.line)

/-- The lines of a layout, each with a line break at its end. -/
def Layout.toText (l : Layout) : String :=
  String.join (l.lines.map (· ++ "\n"))

/-! ### JSON -/

/-- The kind of an entry as JSON. -/
def EntryKind.toJson : EntryKind → Json
  | .attr => .string "attribute"
  | .constant value => .object [("constant", .string value)]
  | .text => .string "text"
  | .valueElement => .string "value_element"
  | .flag => .string "flag"
  | .element => .string "element"
  | .choice => .string "choice"

/-- An entry as JSON. -/
def Entry.toJson (e : Entry) : Json :=
  .object [("kind", e.kind.toJson), ("name", .string e.name),
    ("cardinality", .string e.cardinality.toText), ("value_type", .string e.valueType)]

/-- A layout as JSON. -/
def Layout.toJson (l : Layout) : Json :=
  .object [("tag", Json.optional .string l.tag?), ("type_name", .string l.typeName),
    ("slots", .array (l.entries.map (·.toJson)))]

/-! ### Look-up by name -/

/-- The content types whose layouts can be asked for by name. -/
def Content.listed : List Content :=
  [.group .domain, .group .os, .group .cpu, .group .numa, .group .cache, .group .cpuTune,
    .group .clock, .group .powerManagement, .group .devices, .group .disk,
    .choice .backingStore, .choice .deviceAddress, .group .controller, .group .interface,
    .group .charDevice, .group .input, .group .graphics, .group .video,
    .group .domainSnapshot, .series .filter, .series .rule, .group .filterReference]

/-- The names that layouts can be asked for by. -/
def Layout.names : List String :=
  Content.listed.map (·.name)

/-- The layout of a listed type. Capital and small ASCII letters are the same in names. -/
def Layout.ofName? (name : String) : Option Layout :=
  (Content.listed.find? (·.name.toLower == name.toLower)).map (·.layout)

end GuestXml.Schema
