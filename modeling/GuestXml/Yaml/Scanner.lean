import GuestXml.Yaml.Block
import GuestXml.Yaml.Flow
import GuestXml.Yaml.Property

/-!
# From text to tokens

A text is read once from left to right. The depths of block collections are kept, so that a
line that is less deep ends those it does not belong to. A key without a sign of its own is
only known as one when the colon behind it is met: the place where it began is kept, and the
sign is put in front of it afterwards. Such a key stands on one line, of 1024 characters at
most.
-/

namespace GuestXml.Yaml

/-- A place where a key may have begun. -/
structure KeyStart where
  /-- The number of tokens in front of it. -/
  position : Nat
  mark : Mark
  /-- Whether nothing but a key may stand there. -/
  required : Bool
  deriving DecidableEq, Repr

/-- How far a text has been read. -/
structure Scan where
  rest : List Char
  mark : Mark := {}
  /-- The tokens read so far, last first. -/
  tokens : List Token := []
  count : Nat := 0
  /-- The depths of the block collections that have not ended, innermost first. -/
  depths : List Nat := []
  /-- Whether a key may begin here. -/
  keyAllowed : Bool := true
  /-- Where a key may have begun in the innermost brackets. -/
  keyStart : Option KeyStart := none
  /-- The same for the brackets around them, and for the text outside all brackets. -/
  outerStarts : List (Option KeyStart) := []
  deriving DecidableEq, Repr

namespace Scan

/-- Whether the text stands within brackets. -/
def inFlow (s : Scan) : Bool :=
  !s.outerStarts.isEmpty

/-! ### Tokens -/

/-- Adds a token. -/
def push (s : Scan) (t : Token) : Scan :=
  { s with tokens := t :: s.tokens, count := s.count + 1 }

/-- Puts a token behind the first `position` ones. -/
def insert (s : Scan) (position : Nat) (t : Token) : Scan :=
  let behind := s.count - position
  { s with tokens := s.tokens.take behind ++ t :: s.tokens.drop behind, count := s.count + 1 }

/-- Passes over characters of one line. -/
def advance (s : Scan) (count : Nat) : Scan :=
  { s with rest := s.rest.drop count, mark := s.mark.advance count }

/-- Goes on with what is left of a line. -/
def continueOnLine (s : Scan) (rest : List Char) : Scan :=
  { s with rest, mark := s.mark.advance (s.rest.length - rest.length) }

/-! ### Depths -/

/-- Ends the block collections that are deeper than a column. -/
def unrollTo (s : Scan) (column : Nat) : Scan :=
  if s.inFlow then s
  else
    let ended := s.depths.takeWhile (column < ·)
    ended.foldl (fun s _ => s.push .blockEnd) { s with depths := s.depths.drop ended.length }

/-- Ends all block collections. -/
def unrollAll (s : Scan) : Scan :=
  if s.inFlow then s else s.depths.foldl (fun s _ => s.push .blockEnd) { s with depths := [] }

/-- Begins a block collection at a column, unless there is one at that depth or deeper. -/
def rollTo (s : Scan) (column position : Nat) (t : Token) : Scan :=
  if s.inFlow || s.depths.head?.any (column ≤ ·) then s
  else { s with depths := column :: s.depths }.insert position t

/-! ### Keys -/

/-- Gives up the place where a key may have begun. -/
def dropKeyStart? (s : Scan) : Option Scan :=
  if s.keyStart.any (·.required) then none else some { s with keyStart := none }

/-- Keeps this place, if a key may begin here. -/
def saveKeyStart? (s : Scan) : Option Scan :=
  if s.keyAllowed then do
    let start : KeyStart := {
      position := s.count
      mark := s.mark
      required := !s.inFlow && s.depths.head? == some s.mark.column }
    return { ← s.dropKeyStart? with keyStart := some start }
  else some s

/-- A place where a key may have begun, unless it is too far behind. -/
def freshStart? (mark : Mark) : Option KeyStart → Option (Option KeyStart)
  | none => some none
  | some start =>
    if start.mark.line < mark.line || start.mark.column + 1024 < mark.column then
      if start.required then none else some none
    else some (some start)

/-- Gives up the places that are too far behind. -/
def dropStaleStarts? (s : Scan) : Option Scan := do
  return { s with
    keyStart := ← freshStart? s.mark s.keyStart
    outerStarts := ← s.outerStarts.mapM (freshStart? s.mark) }

/-! ### Between tokens -/

/-- Passes over blanks, comments and ends of lines; returns what is left, where, and whether
a key may begin there. A tab may not stand where a key of a block may begin, and a mark of
byte order may stand in front of a line. -/
def skipFrom (inFlow keyAllowed inComment : Bool) (mark : Mark) :
    List Char → List Char × Mark × Bool
  | [] => ([], mark, keyAllowed)
  | c :: r =>
    if isLongBreak c r then skipFrom inFlow keyAllowed inComment mark r
    else if isBreak c then skipFrom inFlow (keyAllowed || !inFlow) false mark.nextLine r
    else if inComment || (c == '\ufeff' && mark.column == 0) || c == ' ' ||
        (c == '\t' && (inFlow || !keyAllowed)) then
      skipFrom inFlow keyAllowed inComment (mark.advance 1) r
    else if c = '#' then skipFrom inFlow keyAllowed true (mark.advance 1) r
    else (c :: r, mark, keyAllowed)

/-- Goes on to the next token. -/
def toToken? (s : Scan) : Option Scan := do
  let (rest, mark, keyAllowed) := skipFrom s.inFlow s.keyAllowed false s.mark s.rest
  let s ← { s with rest, mark, keyAllowed }.dropStaleStarts?
  return s.unrollTo s.mark.column

/-! ### Single tokens -/

/-- Reads a sign in front of or behind a document. -/
def documentMark? (s : Scan) (t : Token) : Option Scan := do
  let s ← s.unrollAll.dropKeyStart?
  return { s with keyAllowed := false }.push t |>.advance 3

/-- Reads a directive. -/
def directive? (s : Scan) : Option Scan := do
  let s ← s.unrollAll.dropKeyStart?
  let (t, rest) ← Yaml.directive? (s.rest.drop 1)
  return { s with keyAllowed := false, rest, mark := s.mark.nextLine }.push t

/-- Reads an opening bracket. -/
def openFlow? (s : Scan) (t : Token) : Option Scan := do
  let s ← s.saveKeyStart?
  return { s with
    keyAllowed := true
    keyStart := none
    outerStarts := s.keyStart :: s.outerStarts }.push t |>.advance 1

/-- Reads a closing bracket. -/
def closeFlow? (s : Scan) (t : Token) : Option Scan := do
  let s ← s.dropKeyStart?
  let s := match s.outerStarts with
    | [] => s
    | start :: outer => { s with keyStart := start, outerStarts := outer }
  return { s with keyAllowed := false }.push t |>.advance 1

/-- Reads a comma within brackets. -/
def flowEntry? (s : Scan) : Option Scan := do
  return { ← s.dropKeyStart? with keyAllowed := true }.push .flowEntry |>.advance 1

/-- Reads the sign of an entry of a block sequence. -/
def blockEntry? (s : Scan) : Option Scan := do
  let s ←
    if s.inFlow then some s
    else if s.keyAllowed then some (s.rollTo s.mark.column s.count .blockSequence)
    else none
  return { ← s.dropKeyStart? with keyAllowed := true }.push .blockEntry |>.advance 1

/-- Reads the sign of a key. -/
def key? (s : Scan) : Option Scan := do
  let s ←
    if s.inFlow then some s
    else if s.keyAllowed then some (s.rollTo s.mark.column s.count .blockMapping)
    else none
  return { ← s.dropKeyStart? with keyAllowed := !s.inFlow }.push .key |>.advance 1

/-- Reads the colon in front of a value, which may turn what stands before it into a key. -/
def value? (s : Scan) : Option Scan := do
  let s ←
    match s.keyStart with
    | some start =>
      let s := s.insert start.position .key
      let s := s.rollTo start.mark.column start.position .blockMapping
      some { s with keyStart := none, keyAllowed := false }
    | none =>
      if s.inFlow then some { s with keyAllowed := false }
      else if s.keyAllowed then some (s.rollTo s.mark.column s.count .blockMapping)
      else none
  return s.push .value |>.advance 1

/-- Reads an anchor or an alias. -/
def anchor? (s : Scan) (token : String → Token) : Option Scan := do
  let s ← s.saveKeyStart?
  let (name, rest) ← anchorName? (s.rest.drop 1)
  return { s with keyAllowed := false }.continueOnLine rest |>.push (token (String.ofList name))

/-- Reads a tag. -/
def tag? (s : Scan) : Option Scan := do
  let s ← s.saveKeyStart?
  let (t, rest) ← Yaml.tag? s.inFlow (s.rest.drop 1)
  return { s with keyAllowed := false }.continueOnLine rest |>.push t

/-- Reads a block scalar. -/
def blockScalar? (s : Scan) (literal : Bool) : Option Scan := do
  let s ← s.dropKeyStart?
  let b ← Yaml.blockScalar? literal s.depths.head? (s.rest.drop 1)
  return { s with
    rest := b.rest
    mark := { line := s.mark.line + b.lineCount }
    keyAllowed := true }.push
      (.scalar (if literal then .literal else .folded) (String.ofList b.text))

/-- Reads a scalar in quotes. -/
def quotedScalar? (s : Scan) (style : Style)
    (read : Mark → List Char → Option FlowScalar) : Option Scan := do
  let s ← s.saveKeyStart?
  let q ← read (s.mark.advance 1) (s.rest.drop 1)
  return { s with rest := q.rest, mark := q.mark, keyAllowed := false }.push
    (.scalar style (String.ofList q.text))

/-- Reads a plain scalar. -/
def plainScalar? (s : Scan) : Option Scan := do
  let s ← s.saveKeyStart?
  let p ← plainFrom s.inFlow (s.depths.head?.elim 0 (· + 1)) s.mark [] (.spaces []) s.rest
  return { s with rest := p.rest, mark := p.mark, keyAllowed := p.lineEnded }.push
    (.scalar .plain (String.ofList p.text))

/-- Whether a plain scalar can begin with a character. -/
def beginsPlain (inFlow : Bool) (c : Char) (r : List Char) : Bool :=
  !"-?:,[]\x7b\x7d#&*!|>'\"%@`\t".toList.contains c ||
    (c == '-' && !r.head?.any isSpace) ||
    (!inFlow && (c == '?' || c == ':') && !endsWord r)

/-- Reads the next token, which begins with a character. -/
def token? (s : Scan) (c : Char) (r : List Char) : Option Scan :=
  let atLineStart := s.mark.column == 0
  if atLineStart && c == '%' then s.directive?
  else if atLineStart && isDocumentMark (c :: r) then
    s.documentMark? (if c = '-' then .documentStart else .documentEnd)
  else if c = '[' then s.openFlow? .flowSequence
  else if c = '\x7b' then s.openFlow? .flowMapping
  else if c = ']' then s.closeFlow? .flowSequenceEnd
  else if c = '\x7d' then s.closeFlow? .flowMappingEnd
  else if c = ',' then s.flowEntry?
  else if c = '-' ∧ endsWord r then s.blockEntry?
  else if c = '?' ∧ (s.inFlow ∨ endsWord r) then s.key?
  else if c = ':' ∧ (s.inFlow ∨ endsWord r) then s.value?
  else if c = '*' then s.anchor? .alias
  else if c = '&' then s.anchor? .anchor
  else if c = '!' then s.tag?
  else if c = '|' ∧ !s.inFlow then s.blockScalar? true
  else if c = '>' ∧ !s.inFlow then s.blockScalar? false
  else if c = '\'' then
    s.quotedScalar? .singleQuoted fun mark cs => singleQuotedFrom mark [] (.spaces []) cs
  else if c = '"' then
    s.quotedScalar? .doubleQuoted fun mark cs => doubleQuotedFrom mark [] (.spaces []) none cs
  else if beginsPlain s.inFlow c r then s.plainScalar?
  else none

/-- Ends all collections at the end of the text. -/
def finish? (s : Scan) : Option (List Token) := do
  let s ← s.unrollAll.dropKeyStart?
  return (s.push .streamEnd).tokens.reverse

/-- Reads tokens to the end of the text. Every token takes a character at least. -/
def run? : Nat → Scan → Option (List Token)
  | 0, _ => none
  | fuel + 1, s => do
    let s ← s.toToken?
    match s.rest with
    | [] => s.finish?
    | c :: r => run? fuel (← s.token? c r)

end Scan

/-- The tokens of a text. -/
def tokens? (cs : List Char) : Option (List Token) :=
  if cs.all isAdmitted then Scan.run? (cs.length + 1) { rest := cs } else none

end GuestXml.Yaml
