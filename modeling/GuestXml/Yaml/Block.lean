import GuestXml.Number.Bounded
import GuestXml.Yaml.Token

/-!
# Block scalars

Scalars that stand on lines of their own, all at least as deep as the first one. The lines
are kept in a literal scalar and joined in a folded one, except around lines that begin with
a blank.
-/

namespace GuestXml.Yaml

/-! ### Lines -/

/-- A line of a text. -/
structure Line where
  text : List Char
  /-- The characters that end the line; none at the end of the text. -/
  ending : List Char
  deriving DecidableEq, Repr

/-- The lines of a text, of which the last has no end. -/
def linesOf : List Char → List Line
  | [] => [⟨[], []⟩]
  | c :: r =>
    match linesOf r with
    | [] => []
    | l :: ls =>
      if isLongBreak c r then ⟨[], c :: l.ending⟩ :: ls
      else if isBreak c then ⟨[], [c]⟩ :: l :: ls
      else ⟨c :: l.text, l.ending⟩ :: ls

/-- The text of lines. -/
def textOf (ls : List Line) : List Char :=
  ls.flatMap fun l => l.text ++ l.ending

/-- The character that the end of a line counts as. -/
def Line.break? (l : Line) : Option Char :=
  l.ending.getLast?.map breakValue

/-- The number of blanks in front of a line. -/
def Line.depth (l : Line) : Nat :=
  (l.text.takeWhile (· == ' ')).length

/-! ### Heads -/

/-- What becomes of the ends of lines at the end of a scalar. -/
inductive Chomping where
  | strip
  | clip
  | keep
  deriving DecidableEq, Repr

/-- The chomping that a sign asks for. -/
def chomping? : Char → Option Chomping
  | '-' => some .strip
  | '+' => some .keep
  | _ => none

/-- The depth that a digit asks for, which is not zero. -/
def depthSign? (c : Char) : Option Nat :=
  (Number.digitValue? 10 c).filter (0 < ·)

/-- Reads the signs of a head: one for chomping and one for the depth, in any order, each of
which may be missing. -/
def blockSigns : List Char → Chomping × Option Nat × List Char
  | [] => (.clip, none, [])
  | c :: r =>
    match chomping? c, depthSign? c with
    | some chomping, _ =>
      match r.head?.bind depthSign? with
      | some depth => (chomping, some depth, r.drop 1)
      | none => (chomping, none, r)
    | none, some depth =>
      match r.head?.bind chomping? with
      | some chomping => (chomping, some depth, r.drop 1)
      | none => (.clip, some depth, r)
    | none, none => (.clip, none, c :: r)

/-- Reads a head to the end of its line, which may hold a comment. -/
def blockHead? (cs : List Char) : Option (Chomping × Option Nat × List Char) :=
  let (chomping, depth, r) := blockSigns cs
  let r := r.dropWhile isSpace
  let r := if r.head? = some '#' then dropLine r else r
  if endsLine r then some (chomping, depth, dropBreak r) else none

/-! ### Content -/

/-- The depth of a scalar that does not ask for one: that of its first line that is not
blank, but no less than that of the blank lines in front of it. -/
def contentDepth? (deepest : Nat) : List Line → Option Nat
  | [] => some deepest
  | l :: ls =>
    let deepest := max deepest l.depth
    match l.text.drop l.depth, l.ending with
    | [], _ :: _ => contentDepth? deepest ls
    | '\t' :: _, _ => none
    | _, _ => some deepest

/-- The content of a scalar that has been read. -/
structure Content where
  /-- Last character first. -/
  reversed : List Char := []
  /-- The end of the last line. -/
  lastBreak : Option Char := none
  /-- The ends of the blank lines behind it. -/
  breaks : List Char := []
  /-- Whether the last line begins with a blank. -/
  beganBlank : Bool := false
  deriving DecidableEq, Repr

namespace Content

/-- A further line, which is not blank. -/
def addLine (literal : Bool) (c : Content) (text : List Char) (end? : Option Char) : Content :=
  let beginsBlank := text.head?.any isSpace
  let joined :=
    if !literal && c.lastBreak == some '\n' && !c.beganBlank && !beginsBlank then
      if c.breaks.isEmpty then [' '] else c.breaks
    else c.lastBreak.toList ++ c.breaks
  { reversed := text.reverse ++ (joined.reverse ++ c.reversed)
    lastBreak := end?
    beganBlank := beginsBlank }

/-- The text of a scalar. -/
def text (c : Content) : Chomping → List Char
  | .strip => c.reversed.reverse
  | .clip => c.reversed.reverse ++ c.lastBreak.toList
  | .keep => c.reversed.reverse ++ c.lastBreak.toList ++ c.breaks

end Content

/-- Reads the lines of a scalar at a depth, and returns the lines that are left. A tab may not
stand in front of that depth. -/
def contentFrom (literal : Bool) (depth : Nat) (content : Content) :
    List Line → Option (Content × List Line)
  | [] => some (content, [])
  | l :: ls =>
    let blanks := min depth l.depth
    match l.text.drop blanks, l.break? with
    | [], some b => contentFrom literal depth { content with breaks := content.breaks ++ [b] } ls
    | [], none => some (content, [])
    | c :: text, end? =>
      if blanks < depth then if c = '\t' then none else some (content, l :: ls)
      else contentFrom literal depth (content.addLine literal (c :: text) end?) ls

/-- A block scalar that has been read, and what is left behind it. -/
structure BlockScalar where
  text : List Char
  /-- The number of lines that have ended. -/
  lineCount : Nat
  rest : List Char
  deriving DecidableEq, Repr

/-- Reads a block scalar behind its first sign. `parent?` is the depth of the collection that
it stands in. -/
def blockScalar? (literal : Bool) (parent? : Option Nat) (cs : List Char) :
    Option BlockScalar := do
  let (chomping, asked, r) ← blockHead? cs
  let ls := linesOf r
  let depth ← match asked with
    | some n => some (parent?.getD 0 + n)
    | none => (contentDepth? 0 ls).map fun n => max n (max 1 (parent?.elim 0 (· + 1)))
  let (content, left) ← contentFrom literal depth {} ls
  return {
    text := content.text chomping
    lineCount := 1 + (ls.length - left.length)
    rest := textOf left }

end GuestXml.Yaml
