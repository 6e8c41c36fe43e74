import GuestXml.Error
import GuestXml.Schema.Document
import GuestXml.Schema.Layout
import GuestXml.Schema.Shown

/-!
# Commands on documents

Checking a document, writing it in canonical form, and showing it as JSON all begin with
loading it, so they fail together; writing may also break off where no memory holds what is
written. The kind of a document is told from the tag of its root element unless it is given.
A fourth command shows the layout of a type.
-/

namespace GuestXml.Command

open Schema (Content LoadOptions Layout)

/-! ### Failures

A failure is told as a list of messages, each the cause of the one before it; the last one is
the cause of all. -/

/-- The ways a command on a document fails. -/
inductive Failure where
  /-- The kind of a document cannot be told from its root element. -/
  | unknownKind (root : String)
  /-- The text cannot be read as a document. -/
  | unreadable (cause : Error)
  /-- The document cannot be loaded as its kind, or cannot be saved. -/
  | unfit (cause : Error)
  /-- There is no layout with a name; the names there are stand beside it. -/
  | unknownType (name : String) (known : List String)
  deriving DecidableEq, Repr

namespace Failure

/-- The error of loading or saving at the bottom of a failure. -/
def cause? : Failure → Option Error
  | unknownKind _ => none
  | unreadable cause => some cause
  | unfit cause => some cause
  | unknownType _ _ => none

/-- What is said before the error of loading or saving, or instead of one. -/
def context : Failure → List String
  | unknownKind root => ["Cannot detect document kind from root element <" ++ root ++ ">"]
  | unreadable _ => ["Failed to parse XML"]
  | unfit _ => []
  | unknownType name known =>
    ["Unknown schema type '" ++ name ++ "', expected one of: " ++ ", ".intercalate known]

/-- All messages, each the cause of the one before it. -/
def messages (f : Failure) : List String :=
  f.context ++ (f.cause?.map (·.message)).toList

end Failure

/-- How a command ends that comes to nothing. -/
inductive Halt where
  /-- It fails and says why. -/
  | failed (cause : Failure)
  /-- The program breaks off within it. -/
  | aborted
  deriving DecidableEq, Repr

/-! ### Kinds of documents -/

/-- The documents that commands work on. -/
inductive DocumentKind where
  | domain
  | snapshot
  | filter
  deriving DecidableEq, Repr

namespace DocumentKind

/-- All kinds. -/
def all : List DocumentKind :=
  [domain, snapshot, filter]

/-- The name of a kind. -/
def name : DocumentKind → String
  | domain => "domain"
  | snapshot => "snapshot"
  | filter => "filter"

/-- The type that documents of a kind are loaded as. -/
def content : DocumentKind → Content
  | domain => .group .domain
  | snapshot => .group .domainSnapshot
  | filter => .series .filter

/-- The kind of the documents with a root element. -/
def ofRoot? (root : String) : Option DocumentKind :=
  all.find? (·.content.tag? == some root)

/-- The kind that is wanted, or else the one the root element tells. -/
def resolve (wanted? : Option DocumentKind) (root : String) : Except Failure DocumentKind :=
  match wanted?, ofRoot? root with
  | some kind, _ => .ok kind
  | none, some kind => .ok kind
  | none, none => .error (.unknownKind root)

end DocumentKind

/-! ### Loading -/

/-- A document of some kind. -/
structure Loaded where
  kind : DocumentKind
  value : kind.content.Carrier

/-- How results are written. -/
structure OutputOptions where
  /-- The number of spaces for a level of nesting in XML. -/
  indent : Nat := 2
  /-- Whether JSON is written with an item to a line. -/
  jsonPretty : Bool := true
  deriving DecidableEq, Repr

/-- Loads a document of the wanted kind, or of the kind its root element tells. -/
def load (xml : String) (wanted? : Option DocumentKind) (options : LoadOptions) :
    Except Failure Loaded := do
  let root ← (Xml.Document.parse options.maxDepth xml).mapError .unreadable
  let kind ← DocumentKind.resolve wanted? root.name
  let value ← (kind.content.load options root).mapError .unfit
  return { kind, value }

/-! ### Commands -/

/-- Says which kind a document is of, if it can be loaded. -/
def check (xml : String) (wanted? : Option DocumentKind) (options : LoadOptions) :
    Except Failure String := do
  let document ← load xml wanted? options
  return "ok " ++ document.kind.name

/-- The element that holds a document. -/
def Loaded.toElement (document : Loaded) : Except Failure Xml.Element :=
  (document.kind.content.saveDocument document.value).mapError .unfit

/-- The capacity bound of allocations: none has as many bytes or more. For those below it,
memory is taken to suffice. -/
def allocationLimit : Nat := 9223372036854775808

/-- Whether the indented form of an element, with a line break behind it, can be written. The
blanks in front of a line are one allocation, as long as the innermost content takes, and the
text is another. -/
def fitsMemory (indent : Nat) (e : Xml.Element) : Bool :=
  indent * e.openTags < allocationLimit && (e.toXmlPretty indent).utf8ByteSize + 1 < allocationLimit

/-- The document in canonical form, with a line break at the end. -/
def Loaded.toXml (document : Loaded) (indent : Nat) : Except Halt String := do
  let e ← document.toElement.mapError .failed
  if fitsMemory indent e then return e.toXmlPretty indent ++ "\n"
  else .error .aborted

/-- Writes a document in canonical form. -/
def format (xml : String) (wanted? : Option DocumentKind) (options : LoadOptions)
    (output : OutputOptions) : Except Halt String := do
  let document ← (load xml wanted? options).mapError .failed
  document.toXml output.indent

/-- The document as JSON. -/
def Loaded.toJson (document : Loaded) : Json :=
  document.kind.content.toJson document.value

/-- Shows a document as JSON. -/
def showJson (xml : String) (wanted? : Option DocumentKind) (options : LoadOptions)
    (output : OutputOptions) : Except Failure String := do
  let document ← load xml wanted? options
  let json := document.toJson
  return if output.jsonPretty then json.pretty else json.compact

/-- Shows the layout of a type, or the names of all types that have one. -/
def describe (name? : Option String) (asJson : Bool) : Except Failure String :=
  match name? with
  | none => .ok ("\n".intercalate Layout.names)
  | some name =>
    match Layout.ofName? name with
    | none => .error (.unknownType name Layout.names)
    | some layout =>
      .ok (if asJson then layout.toJson.pretty else "\n".intercalate layout.lines)

end GuestXml.Command
