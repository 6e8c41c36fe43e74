import GuestXml.Number.Bounded
import GuestXml.Number.Double
import GuestXml.Text.Character
import GuestXml.Text.Expression
import GuestXml.Value.Integer

/-!
# Settings of the log

The log goes to a stream of its own and says nothing that other output depends on; only its
settings are checked. A filter is a list of directives with commas between them. A directive
is a level, or names a part of the program, or a span of its work in brackets, and may give
a level for it behind an equals sign. A span may be narrowed by a field in braces, whose value
is a number or a regular expression.

Blanks around a directive are passed over when it is split into parts, but not when the parts
are cut out: positions are counted in bytes from the first character that is not blank, and
then applied to the whole directive. With blanks in front, each part thus begins and ends too
early, and if it begins or ends within a character, there is no such part.
-/

namespace GuestXml.Command

/-! ### Formats -/

/-- How lines of the log are written. -/
inductive LogFormat where
  | pretty
  | json
  deriving DecidableEq, Repr

/-- The name of a format. -/
def LogFormat.name : LogFormat → String
  | .pretty => "pretty"
  | .json => "json"

/-- The format with a name, in which capital and small ASCII letters are the same, or else
what is wrong. -/
def LogFormat.ofText (s : String) : Except String LogFormat :=
  let name := s.toLower
  if name = "pretty" ∨ name = "text" then .ok .pretty
  else if name = "json" then .ok .json
  else .error ("Unknown log format '" ++ name ++ "'")

/-! ### Filters -/

/-- What is wrong with a filter. -/
inductive FilterFault where
  /-- It does not read as a filter. -/
  | malformed
  /-- A part of it would begin or end within a character. -/
  | severed
  deriving DecidableEq, Repr

/-- A text without its first bytes, if these are whole characters. -/
def dropBytes? : Nat → List Char → Option (List Char)
  | 0, cs => some cs
  | _ + 1, [] => none
  | n + 1, c :: r => if c.utf8Size ≤ n + 1 then dropBytes? (n + 1 - c.utf8Size) r else none

/-- The first bytes of a text, if these are whole characters. -/
def takeBytes? : Nat → List Char → Option (List Char)
  | 0, _ => some []
  | _ + 1, [] => none
  | n + 1, c :: r =>
    if c.utf8Size ≤ n + 1 then (takeBytes? (n + 1 - c.utf8Size) r).map (c :: ·) else none

/-- The part of a text between two positions in bytes. -/
def slice (text : List Char) (start stop : Nat) : Except FilterFault (List Char) :=
  match (dropBytes? start text).bind (takeBytes? (stop - start)) with
  | some part => .ok part
  | none => .error .severed

/-- Whether a text is a level: its name, or its number from 0 to 5. -/
def isLogLevel (cs : List Char) : Bool :=
  let names := ["off", "error", "warn", "info", "debug", "trace"]
  names.contains (String.ofList (cs.map Char.toLower)) ||
    (Number.Bounded.ofText? 0 5 cs).isSome

/-- Whether a text is a field: a name, and possibly a value behind an equals sign. What
follows a further equals sign is left out. -/
def isLogField (cs : List Char) : Bool :=
  match cs.dropWhile (· != '=') with
  | [] => !cs.isEmpty
  | _ :: r =>
    let value := r.takeWhile (· != '=')
    (Number.Double.ofText? value).isSome || Text.isExpression value

/-- How far a directive has been read; positions say where parts begin. -/
inductive DirectiveState where
  | start
  /-- In a level or in the name of a part of the program. -/
  | part
  /-- In brackets, before any fields. -/
  | span (start : Nat)
  /-- In braces within brackets. -/
  | field (start : Nat)
  /-- Behind the braces within brackets. -/
  | fieldDone
  /-- Behind the brackets. -/
  | spanDone
  /-- Behind the equals sign. -/
  | level (start : Nat)
  deriving DecidableEq, Repr

/-- What follows when a condition on a directive holds. -/
def demand (holds : Bool) : Except FilterFault Unit :=
  if holds then .ok () else .error .malformed

/-- Checks a directive from a state and a position on. `text` is the whole directive, from
which parts are cut. -/
def checkDirectiveFrom (text : List Char) :
    DirectiveState → Nat → List Char → Except FilterFault Unit
  | .part, _, [] | .spanDone, _, [] => .ok ()
  | .level start, _, [] =>
    match dropBytes? start text with
    | none => .error .severed
    | some level => demand (level.isEmpty || isLogLevel level)
  | _, _, [] => .error .malformed
  | state, i, c :: r =>
    let next := i + c.utf8Size
    match state with
    | .start =>
      if c = '[' then checkDirectiveFrom text (.span next) next r
      else do
        demand (Text.isAlphanumeric c || c == '-' || c == ':' || c == '_')
        checkDirectiveFrom text .part next r
    | .part =>
      if c = '=' then do
        let _ ← slice text 0 i
        checkDirectiveFrom text (.level next) next r
      else if c = '[' then do
        let _ ← slice text 0 i
        checkDirectiveFrom text (.span next) next r
      else checkDirectiveFrom text .part next r
    | .span start =>
      if c = ']' then do
        let _ ← slice text start i
        checkDirectiveFrom text .spanDone next r
      else if c = '\x7b' then do
        let _ ← slice text start i
        checkDirectiveFrom text (.field next) next r
      else checkDirectiveFrom text (.span start) next r
    | .field start =>
      if c = '\x7d' then do
        demand (isLogField (← slice text start i))
        checkDirectiveFrom text .fieldDone next r
      else checkDirectiveFrom text (.field start) next r
    | .fieldDone => do
      demand (c == ']')
      checkDirectiveFrom text .spanDone next r
    | .spanDone => do
      demand (c == '=')
      checkDirectiveFrom text (.level next) next r
    | .level start => checkDirectiveFrom text (.level start) next r

/-- Checks a directive. -/
def checkDirective (text : List Char) : Except FilterFault Unit :=
  checkDirectiveFrom text .start 0 (Text.trimChars text)

/-- Checks a filter. Directives between commas may be missing, and the first fault counts. -/
def checkLogFilter (s : String) : Except FilterFault Unit :=
  ((s.toList.splitOn ',').filter (!·.isEmpty)).forM checkDirective

end GuestXml.Command
