import GuestXml.Text.Character
import GuestXml.Text.Pattern
import GuestXml.Uuid

/-!
# Restricted texts

Some texts are words of a closed set, and some have to fit a pattern. Each value of an
enumeration has one spelling, no two values have the same, and the first value is the default.
A restricted text may break its pattern until it is checked; checked ones are made by
`Restricted.of?`, and neither loading nor saving lets others pass. Reading leaves out blanks
around a text or a word; the empty text is the default, even where the pattern refuses it.
-/

namespace GuestXml

open Text (Pattern)

/-! ### Enumerations -/

/-- A closed set of values with fixed spellings. -/
class Enumeration (α : Type) where
  /-- What values are called in messages. -/
  name : String
  /-- The default. -/
  first : α
  /-- All other values, in order. -/
  others : List α
  /-- The word a value is written as. -/
  spelling : α → String
  complete : ∀ a : α, a ∈ first :: others
  nodup_spellings : ((first :: others).map spelling).Nodup

namespace Enumeration

variable {α : Type} [Enumeration α]

/-- All values in order. -/
def all (α : Type) [Enumeration α] : List α :=
  first :: others

/-- The value a word spells, with blanks around it allowed. -/
def ofText? (s : String) : Option α :=
  (all α).find? fun a => spelling a == Text.trim s

/-- The place of a value in the order of all. -/
def index (a : α) : Nat :=
  (all α).findIdx fun b => spelling b == spelling a

end Enumeration

/-! ### Patterns -/

/-- The patterns of the schema. -/
inductive PatternKind where
  /-- A hardware address of a single station: the lowest bit of the first byte is clear. -/
  | unicastMac
  /-- An identifier with or without hyphens. -/
  | uuid
  | hexUnsigned
  | hexPciDomain
  | hexPciBus
  | hexPciSlot
  | hexPciFunction
  | filterName
  /-- A chain of one's own: the name of a protocol and a short ending. -/
  | customChain
  deriving DecidableEq, Repr

namespace PatternKind

/-- The name in messages. -/
def name : PatternKind → String
  | unicastMac => "PUniMacAddr"
  | uuid => "PUuid"
  | hexUnsigned => "PHexUint"
  | hexPciDomain => "PPciDomainHex"
  | hexPciBus => "PPciBusHex"
  | hexPciSlot => "PPciSlotHex"
  | hexPciFunction => "PPciFunctionHex"
  | filterName => "PFilterName"
  | customChain => "PCustomChain"

/-- A hexadecimal digit. -/
def hexDigit : Pattern :=
  .oneOf [('0', '9'), ('a', 'f'), ('A', 'F')]

/-- A hexadecimal digit of an identifier. -/
def uuidDigit : Pattern :=
  .oneOf [('a', 'f'), ('A', 'F'), ('0', '9')]

/-- A hexadecimal digit whose number is even. -/
def evenHexDigit : Pattern :=
  .oneOf ((['0', '2', '4', '6', '8', 'a', 'A', 'c', 'C', 'e', 'E']).map fun c => (c, c))

/-- Digits behind the mark of a hexadecimal number. -/
def hexNumber (digits : Pattern) : Pattern :=
  .all [.char '0', .char 'x', digits]

/-- A character of a filter's or a chain's name. -/
def nameChar : Pattern :=
  .oneOf [('a', 'z'), ('A', 'Z'), ('0', '9'), ('_', '_'), ('.', '.'), (':', ':'), ('-', '-')]

/-- What texts have to fit. -/
def pattern : PatternKind → Pattern
  | unicastMac =>
    .all [hexDigit, evenHexDigit, .exactly 5 (.all [.char ':', .exactly 2 hexDigit])]
  | uuid =>
    .alt (.exactly 32 uuidDigit) <|
      .all [.exactly 8 uuidDigit, .char '-', .exactly 4 uuidDigit, .char '-',
        .exactly 4 uuidDigit, .char '-', .exactly 4 uuidDigit, .char '-', .exactly 12 uuidDigit]
  | hexUnsigned => hexNumber (.between 1 8 hexDigit)
  | hexPciDomain => hexNumber (.between 1 4 hexDigit)
  | hexPciBus => hexNumber (.between 1 2 hexDigit)
  | hexPciSlot => hexNumber (.all [.optional (.oneOf [('0', '1')]), hexDigit])
  | hexPciFunction => hexNumber (.oneOf [('0', '7')])
  | filterName => .oneOrMore nameChar
  | customChain =>
    .all [.any ((["mac", "stp", "vlan", "arp", "rarp", "ipv4", "ipv6"]).map
        fun s => .literal s.toList), .char '-', .between 1 8 nameChar]

/-- All patterns. -/
def all : List PatternKind :=
  [unicastMac, uuid, hexUnsigned, hexPciDomain, hexPciBus, hexPciSlot, hexPciFunction,
    filterName, customChain]

end PatternKind

/-! ### Texts -/

/-- A text that is meant to fit a pattern. -/
structure Restricted (k : PatternKind) where
  text : String
  deriving DecidableEq, Repr

namespace Restricted

variable {k : PatternKind}

/-- Whether a text fits its pattern. -/
def isValid (t : Restricted k) : Bool :=
  k.pattern.accepts t.text.toList

/-- A text that fits the pattern. -/
def of? (s : String) : Option (Restricted k) :=
  if isValid (k := k) ⟨s⟩ then some ⟨s⟩ else none

/-- A text without the blanks around it, not checked yet. -/
def trimmed (s : String) : Restricted k :=
  ⟨Text.trim s⟩

instance : Inhabited (Restricted k) := ⟨⟨""⟩⟩

end Restricted

/-- A hardware address of a single station. -/
abbrev UnicastMac : Type := Restricted .unicastMac

/-- The text of an identifier. -/
abbrev UuidText : Type := Restricted .uuid

namespace UuidText

/-- The identifier a text denotes. -/
def toUuid? (t : UuidText) : Option Uuid :=
  Uuid.ofText? t.text.toList

/-- The canonical text of an identifier. -/
def ofUuid (u : Uuid) : UuidText :=
  ⟨u.toText⟩

end UuidText

end GuestXml
