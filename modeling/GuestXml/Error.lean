/-!
# Errors

Everything that can go wrong between an XML text and a typed value, one constructor per
cause. `Error.message` holds the wording. An error is fatal if it ends a load even while
one of several alternatives is being tried: a document that nests too deeply, or one that
is not well-formed, does not become another alternative.
-/

namespace GuestXml

/-- The ways a text fails to be a well-formed document. -/
inductive Malformation where
  /-- Markup that does not end, or that begins with an unknown sign. -/
  | markup
  /-- An end tag that does not close the innermost open element. -/
  | endTag (found : String)
  /-- Something in a tag that is no attribute, or a repeated attribute. -/
  | tag
  /-- A reference that names no character. -/
  | reference
  /-- The text ends before an element is closed. -/
  | unclosed (name : String)
  /-- A second element outside all others. -/
  | secondRoot (name : String)
  /-- There is no element at all. -/
  | noRoot
  deriving DecidableEq, Repr

/-- The wording of a malformation. -/
def Malformation.message : Malformation → String
  | .markup => "incomplete or unknown markup"
  | .endTag found => s!"end tag </{found}> closes no open element"
  | .tag => "attribute without a quoted value, or repeated attribute"
  | .reference => "reference to no character"
  | .unclosed name => s!"element <{name}> is not closed"
  | .secondRoot name => s!"second root element <{name}>"
  | .noRoot => "document has no root element"

/-- The ways loading or saving fails. -/
inductive Error where
  /-- The root element does not carry the tag of the type to load. -/
  | schemaMismatch (expected found : String)
  /-- A required child element is absent. -/
  | missingElement (parent element : String)
  /-- A required attribute is absent. -/
  | missingAttribute (element name : String)
  /-- A list has fewer members than its least number. -/
  | cardinality (parent element : String) (min found : Nat)
  /-- A text is no value of its kind, or a value breaks its constraint. -/
  | invalidValue (kind value : String)
  /-- An attribute with a fixed value has another one. -/
  | constantMismatch (element name expected found : String)
  /-- None of the alternatives of a choice fits. -/
  | variantExhausted (choice element : String)
  /-- A child element that no slot asked for, where such are denied. -/
  | unexpectedElement (parent element : String)
  /-- An attribute on an element that has to be bare. -/
  | unexpectedAttribute (element name : String)
  /-- A child element that a slot asked for stands after one of a later slot. -/
  | outOfOrder (parent element : String)
  /-- Elements nest deeper than the limit. -/
  | depthExceeded (limit : Nat)
  /-- A type without a tag of its own cannot be a whole document. -/
  | anonymousRoot (typeName : String)
  /-- The text is no well-formed document. -/
  | malformed (cause : Malformation)
  deriving DecidableEq, Repr

namespace Error

/-- The wording of an error. -/
def message : Error → String
  | schemaMismatch expected found =>
    s!"Unexpected root element: expected <{expected}>, found <{found}>"
  | missingElement parent element => s!"Missing required element <{element}> in <{parent}>"
  | missingAttribute element name =>
    s!"Missing required attribute '{name}' on <{element}>"
  | cardinality parent element min found =>
    s!"Element <{element}> occurs {found} time(s) in <{parent}>, expected at least {min}"
  | invalidValue kind value => s!"Invalid {kind} value '{value}'"
  | constantMismatch element name expected found =>
    s!"Attribute '{name}' on <{element}> must be '{expected}', found '{found}'"
  | variantExhausted choice element => s!"No alternative of {choice} matched in <{element}>"
  | unexpectedElement parent element => s!"Unexpected element <{element}> in <{parent}>"
  | unexpectedAttribute element name =>
    s!"Unexpected attribute '{name}' on <{element}>"
  | outOfOrder parent element => s!"Element <{element}> in <{parent}> is out of order"
  | depthExceeded limit => s!"Nesting depth exceeds the limit of {limit}"
  | anonymousRoot typeName => s!"Type {typeName} has no document tag"
  | malformed cause => s!"Malformed XML: {cause.message}"

/-- Errors that end a load even while an alternative is being tried. -/
def isFatal : Error → Bool
  | depthExceeded _ => true
  | malformed _ => true
  | _ => false

end Error

end GuestXml
