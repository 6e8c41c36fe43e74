/-!
# JSON text

Values are shown as JSON. An object keeps its members in the order in which they are given.
In text, quotes, backslashes and control characters are escaped and all else stands as it
is. The indented form uses two spaces for each level and keeps empty lists on one line.
-/

namespace GuestXml

/-- A JSON value, whose numbers are whole. -/
inductive Json where
  | null
  | bool (b : Bool)
  | number (n : Int)
  | string (s : String)
  | array (items : List Json)
  | object (members : List (String × Json))

namespace Json

/-- A value that may be missing. -/
def optional {α : Type} (f : α → Json) : Option α → Json
  | some a => f a
  | none => null

/-! ### Text in quotes -/

/-- The written form of a character between quotes. -/
def escapeChar (c : Char) : List Char :=
  if c = '"' then ['\\', '"']
  else if c = '\\' then ['\\', '\\']
  else if c = '\n' then ['\\', 'n']
  else if c = '\r' then ['\\', 'r']
  else if c = '\t' then ['\\', 't']
  else if c = '\x08' then ['\\', 'b']
  else if c = '\x0c' then ['\\', 'f']
  else if c.toNat < 0x20 then
    ['\\', 'u', '0', '0', Nat.digitChar (c.toNat / 16), Nat.digitChar (c.toNat % 16)]
  else [c]

/-- A text in quotes. -/
def quoted (s : String) : List Char :=
  '"' :: s.toList.flatMap escapeChar ++ ['"']

/-! ### Layout -/

/-- The break before an item at a level of nesting; none on one line. -/
def lineBreak (indented : Bool) (level : Nat) : List Char :=
  if indented then '\n' :: List.replicate (2 * level) ' ' else []

/-- What stands between a name and its value. -/
def colon (indented : Bool) : List Char :=
  if indented then [':', ' '] else [':']

mutual
/-- The written form at a level of nesting. -/
def written (indented : Bool) (level : Nat) : Json → List Char
  | null => ['n', 'u', 'l', 'l']
  | bool true => ['t', 'r', 'u', 'e']
  | bool false => ['f', 'a', 'l', 's', 'e']
  | number n => (toString n).toList
  | string s => quoted s
  | array [] => ['[', ']']
  | array (x :: xs) =>
    '[' :: lineBreak indented (level + 1) ++ written indented (level + 1) x ++
      writtenItems indented level xs ++ [']']
  | object [] => ['\x7b', '\x7d']
  | object ((k, x) :: ms) =>
    '\x7b' :: lineBreak indented (level + 1) ++ quoted k ++ colon indented ++
      written indented (level + 1) x ++ writtenMembers indented level ms ++ ['\x7d']

/-- The items behind the first, and the break before the closing bracket. -/
def writtenItems (indented : Bool) (level : Nat) : List Json → List Char
  | [] => lineBreak indented level
  | x :: xs =>
    ',' :: lineBreak indented (level + 1) ++ written indented (level + 1) x ++
      writtenItems indented level xs

/-- The members behind the first, and the break before the closing bracket. -/
def writtenMembers (indented : Bool) (level : Nat) : List (String × Json) → List Char
  | [] => lineBreak indented level
  | (k, x) :: ms =>
    ',' :: lineBreak indented (level + 1) ++ quoted k ++ colon indented ++
      written indented (level + 1) x ++ writtenMembers indented level ms
end

/-- The value on one line. -/
def compact (j : Json) : String :=
  String.ofList (written false 0 j)

/-- The value with an item to a line. -/
def pretty (j : Json) : String :=
  String.ofList (written true 0 j)

end Json

end GuestXml
