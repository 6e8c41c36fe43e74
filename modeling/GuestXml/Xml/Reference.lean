import GuestXml.Error
import GuestXml.Number.Bounded

/-!
# Character references

Five characters are written as references in attribute values and text: the two angle
brackets, the ampersand and the two quotes. Reading takes the same five names and
references by number. A reference by number has at most seven decimal or six hexadecimal
digits; no digits at all mean zero, and zero, like every number that is no character, is
refused.
-/

namespace GuestXml.Xml

/-! ### Writing -/

/-- The written form of one character. -/
def escapeChar : Char → List Char
  | '<' => ['&', 'l', 't', ';']
  | '>' => ['&', 'g', 't', ';']
  | '&' => ['&', 'a', 'm', 'p', ';']
  | '\'' => ['&', 'a', 'p', 'o', 's', ';']
  | '"' => ['&', 'q', 'u', 'o', 't', ';']
  | c => [c]

/-- The written form of a text. -/
def escape (cs : List Char) : List Char :=
  cs.flatMap escapeChar

/-! ### Reading -/

/-- The character of a code point other than zero. -/
def charOfCode? (n : Nat) : Option Char :=
  if n ≠ 0 ∧ n.isValidChar then some (Char.ofNat n) else none

/-- The character that a reference with this name stands for. -/
def referent? : List Char → Option Char
  | ['l', 't'] => some '<'
  | ['g', 't'] => some '>'
  | ['a', 'm', 'p'] => some '&'
  | ['a', 'p', 'o', 's'] => some '\''
  | ['q', 'u', 'o', 't'] => some '"'
  | '#' :: 'x' :: ds => if ds.length ≤ 6 then (Number.digitsValue? 16 ds).bind charOfCode? else none
  | '#' :: ds => if ds.length ≤ 7 then (Number.digitsValue? 10 ds).bind charOfCode? else none
  | _ => none

/-- Reads a written text. While a reference is open, `name?` holds its name so far, last
character first; it has to be closed by `;` before the next `&`. -/
def unescapeFrom : (name? : Option (List Char)) → List Char → Except Malformation (List Char)
  | none, [] => .ok []
  | some _, [] => .error .reference
  | none, c :: r => if c = '&' then unescapeFrom (some []) r else (c :: ·) <$> unescapeFrom none r
  | some name, c :: r =>
    if c = ';' then
      match referent? name.reverse with
      | some d => (d :: ·) <$> unescapeFrom none r
      | none => .error .reference
    else if c = '&' then .error .reference
    else unescapeFrom (some (c :: name)) r

/-- The text that a written text stands for. -/
def unescape (cs : List Char) : Except Malformation (List Char) :=
  unescapeFrom none cs

end GuestXml.Xml
