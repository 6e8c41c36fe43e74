import GuestXml.Number.Bounded
import GuestXml.Text.Character

/-!
# Regular expressions

Which texts are regular expressions, in the notation with groups, classes in brackets,
escapes and flags. Nothing is matched here; `isExpression` only says whether a text is well
formed. It is read once from left to right, with the flags in force, and with the heights of
what has been read, since parts may not be nested too deeply.

Two limits are those of expressions that are matched character by character with nothing
remembered: the edge of a word may not be asked for if words are made of all letters of
Unicode, and no part may match half a character, which could only happen where characters
are single bytes. A repetition with bounds in braces is not read.
-/

namespace GuestXml.Text.Expression

open GuestXml.Number (digitValue?)

/-! ### Flags -/

/-- The flags that decide what may be written. -/
structure Mode where
  /-- Whether blanks and comments may stand between the parts. -/
  spaced : Bool := false
  /-- Whether characters are those of Unicode, and not single bytes. -/
  unicode : Bool := true
  deriving DecidableEq, Repr

/-- Leaves out blanks, and comments that go from a number sign to the end of the line. -/
def skipBlanks (inComment : Bool) : List Char → List Char
  | [] => []
  | c :: r =>
    if inComment then skipBlanks (c != '\n') r
    else if isBlank c then skipBlanks false r
    else if c = '#' then skipBlanks true r
    else c :: r

namespace Mode

/-- What is left behind the blanks, if they do not count. -/
def skip (m : Mode) (cs : List Char) : List Char :=
  if m.spaced then skipBlanks false cs else cs

/-- The next character behind the current one. Where blanks do not count, neither does the
first number sign. -/
def peek? (m : Mode) (cs : List Char) : Option Char :=
  if m.spaced then
    match cs.dropWhile isBlank with
    | '#' :: r => (r.dropWhile isBlank).head?
    | r => r.head?
  else cs.head?

end Mode

/-- The flags between a question mark and the end of a group's head: letters, each once at
most, with a hyphen before those that are switched off, and the last sign is a letter. -/
def flags? (seen : List Char) : List Char → Option (List Char × List Char)
  | [] => none
  | c :: r =>
    if c = ':' ∨ c = ')' then
      if seen.head? = some '-' then none else some (seen.reverse, c :: r)
    else if "imsUuRx-".toList.contains c && !seen.contains c then flags? (c :: seen) r
    else none

/-- What flags say about a letter, if anything. -/
def flagValue? (flags : List Char) (letter : Char) : Option Bool :=
  if flags.contains letter then some (!(flags.takeWhile (· != letter)).contains '-') else none

/-- The mode after flags. -/
def Mode.withFlags (m : Mode) (flags : List Char) : Mode where
  spaced := (flagValue? flags 'x').getD m.spaced
  unicode := (flagValue? flags 'u').getD m.unicode

/-! ### Escapes -/

/-- What stands for one place in an expression. -/
inductive Atom where
  /-- A character; `asByte` if it is written as two hexadecimal digits. -/
  | char (c : Char) (asByte : Bool)
  /-- A class of characters. -/
  | characters
  /-- An edge: of a line, of the text, or of a word. -/
  | edge
  deriving DecidableEq, Repr

/-- The signs that have a meaning somewhere in the notation. -/
def isSign (c : Char) : Bool :=
  "\\.+*?()|[]\x7b\x7d^$#&-~".toList.contains c

/-- The characters that stand for themselves behind a backslash: signs, and other ASCII
characters but letters, digits, and angle brackets. -/
def isEscapable (c : Char) : Bool :=
  isSign c || (c.toNat < 128 && !c.isAlphanum && c != '<' && c != '>')

/-- Reads a number of hexadecimal digits. -/
def hexadecimal? (m : Mode) : Nat → Nat → List Char → Option (Nat × List Char)
  | 0, value, cs => some (value, cs)
  | _ + 1, _, [] => none
  | count + 1, value, c :: r => do
    hexadecimal? m count (value * 16 + (← digitValue? 16 c)) (m.skip r)

/-- Reads a character that is given by the digits of its code point. -/
def codePoint? (m : Mode) (digits : Nat) (cs : List Char) : Option (Atom × List Char) := do
  let (value, r) ← hexadecimal? m digits 0 (m.skip cs)
  if value.isValidChar then some (.char (Char.ofNat value) (digits == 2), r) else none

/-- The control character that a letter stands for behind a backslash. -/
def controlCharacter? (c : Char) : Option Char :=
  [('a', '\x07'), ('f', '\x0c'), ('t', '\t'), ('n', '\n'), ('r', '\r'), ('v', '\x0b')].lookup c

/-- Reads what follows a backslash. -/
def escape? (m : Mode) : List Char → Option (Atom × List Char)
  | [] => none
  | c :: r =>
    if c = 'x' then codePoint? m 2 r
    else if c = 'u' then codePoint? m 4 r
    else if c = 'U' then codePoint? m 8 r
    else if c = 'p' ∨ c = 'P' then
      -- The one-letter names of general categories.
      match m.skip r with
      | name :: r =>
        if m.unicode && "LMNPSZClmnpszc".toList.contains name then some (.characters, m.skip r)
        else none
      | [] => none
    else if "dsw".toList.contains c then some (.characters, r)
    else if "DSW".toList.contains c then if m.unicode then some (.characters, r) else none
    else if c = 'A' ∨ c = 'z' then some (.edge, r)
    else if "bB<>".toList.contains c then if m.unicode then none else some (.edge, r)
    else if isEscapable c then some (.char c false, r)
    else (controlCharacter? c).map fun d => (.char d false, r)

/-- Reads one place of an expression: what follows a backslash, or a character. -/
def atom? (m : Mode) : List Char → Option (Atom × List Char)
  | [] => none
  | '\\' :: r => escape? m r
  | c :: r => some (.char c false, r)

/-! ### Heights -/

/-- The height of several parts in a row, of which there may be none or one. -/
def rowHeight : List Nat → Nat
  | [] => 0
  | [h] => h
  | hs => 1 + hs.foldl max 0

/-- The greatest height of an expression. -/
def maxHeight : Nat := 250

/-! ### Classes in brackets -/

/-- Whether something can be an item of a class; single bytes are ASCII characters. -/
def Atom.isItem (m : Mode) : Atom → Bool
  | char c _ => m.unicode || c.toNat < 128
  | characters => true
  | edge => false

/-- Reads an item of a class, or a range that an item begins, and returns what is left. -/
def item? (m : Mode) (cs : List Char) : Option (List Char) := do
  let (first, r) ← atom? m cs
  match m.skip r with
  | [] => none
  | '-' :: r =>
    match m.peek? r with
    | some ']' | some '-' => if first.isItem m then some ('-' :: r) else none
    | _ =>
      match first, ← atom? m (m.skip r) with
      | .char a x, (.char b y, rest) =>
        if a ≤ b && Atom.isItem m (.char a x) && Atom.isItem m (.char b y) then some rest
        else none
      | _, _ => none
  | r => if first.isItem m then some r else none

/-- The names of classes of ASCII characters. -/
def asciiClasses : List String :=
  ["alnum", "alpha", "ascii", "blank", "cntrl", "digit", "graph", "lower", "print", "punct",
    "space", "upper", "word", "xdigit"]

/-- Reads a class of ASCII characters behind its bracket: whether it is negated, and what
follows it. -/
def asciiClass? : List Char → Option (Bool × List Char)
  | ':' :: r =>
    let (negated, r) := match r with
      | '^' :: r => (true, r)
      | r => (false, r)
    match r.dropWhile (· != ':') with
    | ':' :: ']' :: rest =>
      if asciiClasses.contains (String.ofList (r.takeWhile (· != ':'))) then some (negated, rest)
      else none
    | _ => none
  | _ => none

/-- A bracket that is being read. -/
structure Bracket where
  /-- The height of what stands in front of the last operator, if there is one. -/
  operand : Option Nat := none
  /-- The heights of the items behind it, last first. -/
  items : List Nat := []
  deriving DecidableEq, Repr

namespace Bracket

/-- The height of the set read so far. -/
def height (b : Bracket) : Nat :=
  match b.operand with
  | none => rowHeight b.items
  | some h => 1 + max h (rowHeight b.items)

/-- A further item. -/
def add (b : Bracket) (height : Nat) : Bracket :=
  { b with items := height :: b.items }

/-- An operator, behind which items begin anew. -/
def operator (b : Bracket) : Bracket where
  operand := some b.height

end Bracket

/-- Counts the hyphens in front of a text, and returns what is left behind them. -/
def hyphens (spaced inComment : Bool) (count : Nat) : List Char → Nat × List Char
  | [] => (count, [])
  | c :: r =>
    if inComment then hyphens spaced (c != '\n') count r
    else if c = '-' then hyphens spaced false (count + 1) r
    else if spaced && (isBlank c || c == '#') then hyphens spaced (c == '#') count r
    else (count, c :: r)

/-- Reads the head of a bracket behind the opening sign: a circumflex if the class is
negated, and hyphens, or else a closing bracket, that stand for themselves. -/
def openBracket? (m : Mode) (cs : List Char) : Option (Bracket × List Char) :=
  let (negated, cs) := match m.skip cs with
    | '^' :: r => (true, m.skip r)
    | r => (false, r)
  if negated && !m.unicode then none
  else
    match hyphens m.spaced false 0 cs with
    | (_, []) => none
    | (0, ']' :: r) => if (m.skip r).isEmpty then none else some ({ items := [0] }, m.skip r)
    | (count, r) => some ({ items := List.replicate count 0 }, r)

/-- Reads a bracket and those within it to the end, and returns its height. `outer` are the
brackets around it, innermost first. -/
def bracket? (m : Mode) (outer : List Bracket) (b : Bracket) :
    Nat → List Char → Option (Nat × List Char)
  | 0, _ => none
  | fuel + 1, cs =>
    match m.skip cs with
    | [] => none
    | '[' :: r =>
      match asciiClass? r with
      | some (negated, r) =>
        if negated && !m.unicode then none else bracket? m outer (b.add 0) fuel r
      | none => do
        let (inner, r) ← openBracket? m r
        bracket? m (b :: outer) inner fuel r
    | ']' :: r =>
      match outer with
      | [] => some (1 + b.height, r)
      | o :: outer => bracket? m outer (o.add (1 + b.height)) fuel r
    | '&' :: '&' :: r | '-' :: '-' :: r | '~' :: '~' :: r => bracket? m outer b.operator fuel r
    | cs => do bracket? m outer (b.add 0) fuel (← item? m cs)

/-- Reads a class behind its opening bracket, and returns its height. -/
def charClass? (m : Mode) (cs : List Char) : Option (Nat × List Char) := do
  let (b, r) ← openBracket? m cs
  bracket? m [] b (cs.length + 1) r

/-! ### Groups -/

/-- What stands behind an opening parenthesis. -/
inductive Head where
  /-- Flags for what follows, up to the end of the group around them. -/
  | flags (m : Mode)
  /-- The beginning of a group, which may have a name. -/
  | group (m : Mode) (name : List Char)
  deriving DecidableEq, Repr

/-- Whether a text can be the name of a group. -/
def isGroupName : List Char → Bool
  | [] => false
  | c :: r =>
    (c == '_' || isAlphabetic c) &&
      r.all fun d => "_.[]".toList.contains d || isAlphanumeric d

/-- Reads the name of a group up to an angle bracket. -/
def groupName? (cs : List Char) : Option (List Char × List Char) :=
  let name := cs.takeWhile (· != '>')
  match cs.dropWhile (· != '>') with
  | _ :: r => if isGroupName name then some (name, r) else none
  | [] => none

/-- Reads what stands behind an opening parenthesis. -/
def head? (m : Mode) (cs : List Char) : Option (Head × List Char) :=
  match m.skip cs with
  | '?' :: 'P' :: '<' :: r | '?' :: '<' :: r => do
    let (name, r) ← groupName? r
    return (.group m name, r)
  | '?' :: r => do
    match ← flags? [] r with
    | ([], ')' :: _) => none
    | (flags, ')' :: r) => return (.flags (m.withFlags flags), r)
    | (flags, r) => return (.group (m.withFlags flags) [], r.drop 1)
  | r => some (.group m [], r)

/-- A group that is being read. -/
structure Group where
  /-- The heights of the branches in front of the last bar. -/
  branches : List Nat := []
  /-- The heights of the parts behind it, last first. -/
  parts : List Nat := []
  /-- Whether the last part can be repeated. -/
  repeatable : Bool := false
  deriving DecidableEq, Repr

namespace Group

/-- The height of what has been read of a group. -/
def height (g : Group) : Nat :=
  rowHeight (rowHeight g.parts :: g.branches)

/-- A further part. -/
def add (g : Group) (height : Nat) : Group :=
  { g with parts := height :: g.parts, repeatable := true }

/-- Flags are a part that cannot be repeated. -/
def addFlags (g : Group) : Group :=
  { g.add 0 with repeatable := false }

/-- A repetition of the last part. -/
def repeated? (g : Group) : Option Group :=
  match g.repeatable, g.parts with
  | true, h :: hs => some { g with parts := (1 + h) :: hs }
  | _, _ => none

/-- A bar, behind which parts begin anew. -/
def bar (g : Group) : Group where
  branches := rowHeight g.parts :: g.branches

end Group

/-- Whether something can be a part of an expression: no part may match half a character. -/
def Atom.isPart (m : Mode) : Atom → Bool
  | char c asByte => m.unicode || !asByte || c.toNat < 128
  | characters | edge => true

/-- Reads an expression to the end, and returns its height. `outer` are the groups around
the current one, innermost first, with the modes behind them, and `names` the names given
to groups so far. -/
def parts? (names : List (List Char)) (outer : List (Group × Mode)) (g : Group) (m : Mode) :
    Nat → List Char → Option Nat
  | 0, _ => none
  | fuel + 1, cs =>
    match m.skip cs with
    | [] => if outer.isEmpty then some g.height else none
    | '(' :: r => do
      match ← head? m r with
      | (.flags m, r) => parts? names outer g.addFlags m fuel r
      | (.group inner name, r) =>
        if name.isEmpty then parts? names ((g, m) :: outer) {} inner fuel r
        else if names.contains name then none
        else parts? (name :: names) ((g, m) :: outer) {} inner fuel r
    | ')' :: r =>
      match outer with
      | [] => none
      | (o, m) :: outer => parts? names outer (o.add (1 + g.height)) m fuel r
    | '|' :: r => parts? names outer g.bar m fuel r
    | '[' :: r => do
      let (height, r) ← charClass? m r
      parts? names outer (g.add height) m fuel r
    | '\x7b' :: _ => none
    | '.' :: r => if m.unicode then parts? names outer (g.add 0) m fuel r else none
    | '*' :: r | '+' :: r | '?' :: r => do
      let r := match r with
        | '?' :: r => r
        | r => r
      parts? names outer (← g.repeated?) m fuel r
    | cs => do
      let (atom, r) ← atom? m cs
      if atom.isPart m then parts? names outer (g.add 0) m fuel r else none

end Expression

/-- Whether a text is a regular expression. -/
def isExpression (cs : List Char) : Bool :=
  ((Expression.parts? [] [] {} {} (cs.length + 1) cs).any (· ≤ Expression.maxHeight))

end GuestXml.Text
