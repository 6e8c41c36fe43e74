import GuestXml.Schema.Reader
import GuestXml.Schema.Writer
import GuestXml.Xml.Document

/-!
# Typed documents

A type with a tag is loaded from an element with that tag and saved as a new child element.
Any other type is loaded from whatever element it is given and saved into that element
itself, so it cannot be a document of its own. The limit on nesting holds for the text as
well as for the value.
-/

namespace GuestXml.Schema

open Xml (Element)

/-- How documents are loaded. -/
structure LoadOptions where
  /-- How deep elements may nest, the loaded element included. -/
  maxDepth : Nat := Xml.Document.defaultMaxDepth
  /-- Whether a child element that no member asks for is an error. -/
  denyUnknown : Bool := false
  deriving DecidableEq, Repr

namespace Content

variable (t : Content)

/-! ### Loading -/

/-- What is wrong with the root element, if it does not carry the tag of the type. -/
def tagMismatch? (root : Element) : Option Error :=
  match t.tag? with
  | some tag => if root.name = tag then none else some (.schemaMismatch tag root.name)
  | none => none

/-- Reads an element as a value of the type, and counts the elements consumed below it. -/
def readRoot (options : LoadOptions) (root : Element) : Except Error (t.Carrier × Nat) :=
  (t.read (Reading.start root options.maxDepth options.denyUnknown)).1

/-- Loads a value and counts the elements consumed, once the tag has been checked. -/
def loadCounted (options : LoadOptions) (root : Element) : Except Error (t.Carrier × Nat) :=
  match t.tagMismatch? root with
  | some e => .error e
  | none => t.readRoot options root

/-- Loads a value from an element. -/
def load (options : LoadOptions) (root : Element) : Except Error t.Carrier :=
  (t.loadCounted options root).map Prod.fst

theorem tagMismatch?_eq_none_iff {t : Content} {root : Element} :
    t.tagMismatch? root = none ↔ ∀ tag ∈ t.tag?, root.name = tag := by
  unfold tagMismatch?
  cases t.tag? <;> simp

/-- A value is loaded if the root carries the tag of the type and is read as the value. -/
theorem load_eq_ok_iff {t : Content} {options : LoadOptions} {root : Element} {v : t.Carrier} :
    t.load options root = .ok v ↔
      (∀ tag ∈ t.tag?, root.name = tag) ∧ ∃ n, t.readRoot options root = .ok (v, n) := by
  rw [← tagMismatch?_eq_none_iff]
  unfold load loadCounted
  cases t.tagMismatch? root with
  | some e => simp [Except.map]
  | none =>
    cases t.readRoot options root with
    | error e => simp [Except.map]
    | ok p =>
      obtain ⟨w, n⟩ := p
      simp [Except.map]

/-- Loads a value from the root element of a text. -/
def ofXml (options : LoadOptions) (xml : String) : Except Error t.Carrier := do
  t.load options (← Xml.Document.parse options.maxDepth xml)

/-! ### Saving -/

/-- The element with a tag that holds a value. -/
def toElement (tag : String) (v : t.Carrier) : Except Error Element :=
  t.writeInto v { name := tag }

/-- Saves a value into an element: as a new child if the type has a tag, and into the
element itself otherwise. -/
def save (v : t.Carrier) (parent : Element) : Except Error Element :=
  match t.tag? with
  | some tag => parent.pushElement <$> t.toElement tag v
  | none => t.writeInto v parent

/-- Saves a value as the root element of a document. -/
def saveDocument (v : t.Carrier) : Except Error Element :=
  match t.tag? with
  | some tag => t.toElement tag v
  | none => .error (.anonymousRoot t.qualifiedName)

/-- A value as a document on one line. -/
def toXml (v : t.Carrier) : Except Error String :=
  (·.toXml) <$> t.saveDocument v

/-- A value as an indented document. -/
def toXmlPretty (indent : Nat) (v : t.Carrier) : Except Error String :=
  (·.toXmlPretty indent) <$> t.saveDocument v

end Content

end GuestXml.Schema
