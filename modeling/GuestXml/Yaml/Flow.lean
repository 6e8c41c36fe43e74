import GuestXml.Number.Bounded
import GuestXml.Yaml.Token

/-!
# Plain and quoted scalars

Scalars whose lines are joined: blanks around the end of a line are left out, a single end
of a line counts as a blank, and of several the first one is left out.
-/

namespace GuestXml.Yaml

/-! ### Gaps -/

/-- The blanks since the last visible character of a scalar. -/
inductive Gap where
  /-- Blanks on one line, last first. -/
  | spaces (reversed : List Char)
  /-- Ends of lines: the first, if it counts, and the others, last first. -/
  | lines (first : Option Char) (reversed : List Char)
  deriving DecidableEq, Repr

namespace Gap

/-- A further blank on the line. -/
def addSpace (c : Char) : Gap → Gap
  | spaces cs => spaces (c :: cs)
  | g => g

/-- A further end of a line. -/
def addBreak (c : Char) : Gap → Gap
  | spaces _ => lines (some c) []
  | lines first cs => lines first (c :: cs)

/-- Whether a line has ended. -/
def isLines : Gap → Bool
  | spaces _ => false
  | lines .. => true

/-- What a gap counts as between visible characters, last character first. -/
def joinReversed : Gap → List Char
  | spaces cs => cs
  | lines (some '\n') [] => [' ']
  | lines (some '\n') cs => cs
  | lines first cs => cs ++ first.toList

end Gap

/-! ### Plain scalars -/

/-- A scalar that has been read, and what is left behind it. -/
structure FlowScalar where
  text : List Char
  mark : Mark
  rest : List Char
  /-- Whether lines ended between the scalar and the rest. -/
  lineEnded : Bool := false
  deriving DecidableEq, Repr

/-- Whether a plain scalar ends in front of a text: at a colon that ends a key, or, within
brackets, at a sign of a collection. -/
def endsPlain (inFlow : Bool) (c : Char) (r : List Char) : Bool :=
  (c == ':' && endsWord r) || (inFlow && ",[]\x7b\x7d".toList.contains c)

/-- Reads a plain scalar. Its further lines begin at the column `floor` or behind it, unless it
stands within brackets. `read` is what has been read, last character first. -/
def plainFrom (inFlow : Bool) (floor : Nat) (mark : Mark) (read : List Char) (gap : Gap) :
    List Char → Option FlowScalar
  | [] => some { text := read.reverse, mark, rest := [], lineEnded := gap.isLines }
  | c :: r =>
    if isLongBreak c r then plainFrom inFlow floor mark read gap r
    else if isBreak c then plainFrom inFlow floor mark.nextLine read (gap.addBreak (breakValue c)) r
    else if isSpace c then
      if gap.isLines && c == '\t' && mark.column < floor then none
      else plainFrom inFlow floor (mark.advance 1) read (gap.addSpace c) r
    else
      let afterGap := gap != .spaces []
      let ends :=
        (afterGap && ((!inFlow && mark.column < floor) || c == '#')) ||
          (mark.column == 0 && isDocumentMark (c :: r))
      if ends then some { text := read.reverse, mark, rest := c :: r, lineEnded := gap.isLines }
      else if inFlow && c == ':' && r.head?.any (",?[]\x7b\x7d".toList.contains ·) then none
      else if endsPlain inFlow c r then
        some { text := read.reverse, mark, rest := c :: r, lineEnded := gap.isLines }
      else
        plainFrom inFlow floor (mark.advance 1) (c :: (gap.joinReversed ++ read)) (.spaces []) r

/-! ### Quoted scalars -/

/-- What an escape stands for. -/
inductive Escape where
  | char (c : Char)
  /-- The code point that some hexadecimal digits give. -/
  | code (digits : Nat)
  deriving DecidableEq, Repr

/-- What a character stands for behind a backslash. -/
def escape? (c : Char) : Option Escape :=
  [('0', .char '\x00'), ('a', .char '\x07'), ('b', .char '\x08'), ('t', .char '\t'),
    ('\t', .char '\t'), ('n', .char '\n'), ('v', .char '\x0b'), ('f', .char '\x0c'),
    ('r', .char '\r'), ('e', .char '\x1b'), (' ', .char ' '), ('"', .char '"'),
    ('/', .char '/'), ('\\', .char '\\'), ('N', .char '\x85'), ('_', .char '\xa0'),
    ('L', .char '\u2028'), ('P', .char '\u2029'), ('x', .code 2), ('u', .code 4),
    ('U', .code 8)].lookup c

/-- Reads a scalar in single quotes behind the first one; two quotes stand for one. -/
def singleQuotedFrom (mark : Mark) (read : List Char) (gap : Gap) : List Char → Option FlowScalar
  | [] => none
  | c :: r =>
    if isLongBreak c r then singleQuotedFrom mark read gap r
    else if isBreak c then singleQuotedFrom mark.nextLine read (gap.addBreak (breakValue c)) r
    else if isSpace c then singleQuotedFrom (mark.advance 1) read (gap.addSpace c) r
    else if mark.column == 0 && isDocumentMark (c :: r) then none
    else
      let read := gap.joinReversed ++ read
      if c = '\'' then
        match r with
        | '\'' :: r => singleQuotedFrom (mark.advance 2) ('\'' :: read) (.spaces []) r
        | r => some { text := read.reverse, mark := mark.advance 1, rest := r }
      else singleQuotedFrom (mark.advance 1) (c :: read) (.spaces []) r

/-- Reads a scalar in double quotes behind the first one. An escaped end of a line does not
count, nor do the blanks behind it. `code` holds the number of digits that are still to come
in an escape, and the value of those before them. -/
def doubleQuotedFrom (mark : Mark) (read : List Char) (gap : Gap) (code : Option (Nat × Nat)) :
    List Char → Option FlowScalar
  | [] => none
  | c :: r =>
    match code with
    | some (count, value) => do
      let value := value * 16 + (← Number.digitValue? 16 c)
      if 1 < count then
        doubleQuotedFrom (mark.advance 1) read gap (some (count - 1, value)) r
      else if value.isValidChar then
        doubleQuotedFrom (mark.advance 1) (Char.ofNat value :: read) gap none r
      else none
    | none =>
      if isLongBreak c r then doubleQuotedFrom mark read gap none r
      else if isBreak c then
        doubleQuotedFrom mark.nextLine read (gap.addBreak (breakValue c)) none r
      else if isSpace c then doubleQuotedFrom (mark.advance 1) read (gap.addSpace c) none r
      else if mark.column == 0 && isDocumentMark (c :: r) then none
      else
        let read := gap.joinReversed ++ read
        if c = '"' then some { text := read.reverse, mark := mark.advance 1, rest := r }
        else if c = '\\' then
          match r with
          | [] => none
          | '\r' :: '\n' :: r => doubleQuotedFrom mark.nextLine read (.lines none []) none r
          | d :: r =>
            if isBreak d then doubleQuotedFrom mark.nextLine read (.lines none []) none r
            else
              match escape? d with
              | some (.char e) =>
                doubleQuotedFrom (mark.advance 2) (e :: read) (.spaces []) none r
              | some (.code digits) =>
                doubleQuotedFrom (mark.advance 2) read (.spaces []) (some (digits, 0)) r
              | none => none
        else doubleQuotedFrom (mark.advance 1) (c :: read) (.spaces []) none r

end GuestXml.Yaml
