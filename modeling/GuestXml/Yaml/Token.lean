/-!
# Characters and tokens of YAML

The characters that divide a text into lines and words, and those that it may hold at all; and
what a text is made of: the signs of collections, among them those that only the depth of
lines gives, properties of nodes, and scalars.
-/

namespace GuestXml.Yaml

/-! ### Characters and places -/

/-- The characters that end a line. A carriage return and a line feed end one line together. -/
def isBreak (c : Char) : Bool :=
  c == '\n' || c == '\r' || c == '\x85' || c == '\u2028' || c == '\u2029'

/-- The characters that separate words on a line. -/
def isSpace (c : Char) : Bool :=
  c == ' ' || c == '\t'

/-- Whether a word ends in front of a text. -/
def endsWord : List Char → Bool
  | [] => true
  | c :: _ => isSpace c || isBreak c

/-- Whether a line ends in front of a text. -/
def endsLine : List Char → Bool
  | [] => true
  | c :: _ => isBreak c

/-- The characters of names. -/
def isNameChar (c : Char) : Bool :=
  c.isAlphanum || c == '_' || c == '-'

/-- The characters that a text may hold: no controls but tabs and the ends of lines. -/
def isAdmitted (c : Char) : Bool :=
  let n := c.toNat
  n == 9 || n == 0xA || n == 0xD || (0x20 ≤ n && n ≤ 0x7E) || n == 0x85 ||
    (0xA0 ≤ n && n ≤ 0xFFFD) || 0x10000 ≤ n

/-- The character that the end of a line counts as within a scalar. -/
def breakValue (c : Char) : Char :=
  if c = '\u2028' ∨ c = '\u2029' then c else '\n'

/-- Whether a text begins with a line break of two characters. -/
def isLongBreak (c : Char) (r : List Char) : Bool :=
  c == '\r' && r.head? == some '\n'

/-- A text without the rest of its first line, up to the end of the line. -/
def dropLine (cs : List Char) : List Char :=
  cs.dropWhile (!isBreak ·)

/-- A text without the end of a line that it begins with. -/
def dropBreak : List Char → List Char
  | '\r' :: '\n' :: r => r
  | _ :: r => r
  | [] => []

/-- Whether a text begins with a mark between documents: three hyphens or points, as a word. -/
def isDocumentMark (cs : List Char) : Bool :=
  (cs.take 3 == ['-', '-', '-'] || cs.take 3 == ['.', '.', '.']) && endsWord (cs.drop 3)

/-- A place in a text, both counts from zero. -/
structure Mark where
  line : Nat := 0
  column : Nat := 0
  deriving DecidableEq, Repr

namespace Mark

/-- The place some characters further on. -/
def advance (m : Mark) (count : Nat) : Mark :=
  { m with column := m.column + count }

/-- The beginning of the next line. -/
def nextLine (m : Mark) : Mark where
  line := m.line + 1

end Mark

/-! ### Tokens -/

/-- How a scalar is written. -/
inductive Style where
  | plain
  | singleQuoted
  | doubleQuoted
  | literal
  | folded
  deriving DecidableEq, Repr

/-- A token. -/
inductive Token where
  | version (major minor : Nat)
  | tagShorthand (handle start : String)
  | documentStart
  | documentEnd
  | streamEnd
  | blockSequence
  | blockMapping
  | blockEnd
  | flowSequence
  | flowSequenceEnd
  | flowMapping
  | flowMappingEnd
  | blockEntry
  | flowEntry
  | key
  | value
  | alias (name : String)
  | anchor (name : String)
  | tag (handle rest : String)
  | scalar (style : Style) (text : String)
  deriving DecidableEq, Repr

end GuestXml.Yaml
