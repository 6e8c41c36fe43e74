/-!
# Patterns

A pattern describes a set of texts: single characters of a class, sequences, alternatives
and repetitions. `Pattern.source` writes it down in the usual notation, and
`Pattern.accepts` decides whether a whole text belongs to it by taking derivatives: after
each character, what the rest of the text still has to fit.
-/

namespace GuestXml.Text

/-- A description of a set of texts. -/
inductive Pattern where
  /-- No text. -/
  | never
  /-- The empty text. -/
  | empty
  /-- One character out of ranges, whose ends are included. -/
  | oneOf (ranges : List (Char × Char))
  /-- One part after the other. -/
  | seq (first second : Pattern)
  /-- Either of two. -/
  | alt (left right : Pattern)
  /-- A number of times at least, then up to a number of further times, or any number. -/
  | times (p : Pattern) (least : Nat) (more : Option Nat)
  deriving DecidableEq, Repr

namespace Pattern

/-! ### Building patterns -/

/-- One character. -/
def char (c : Char) : Pattern :=
  oneOf [(c, c)]

/-- A text as it stands. -/
def literal : List Char → Pattern
  | [] => empty
  | [c] => char c
  | c :: r => seq (char c) (literal r)

/-- A number of times exactly. -/
def exactly (n : Nat) (p : Pattern) : Pattern :=
  times p n (some 0)

/-- Any number of times between two. -/
def between (lo hi : Nat) (p : Pattern) : Pattern :=
  times p lo (some (hi - lo))

/-- Once or more. -/
def oneOrMore (p : Pattern) : Pattern :=
  times p 1 none

/-- Once or not at all. -/
def optional (p : Pattern) : Pattern :=
  times p 0 (some 1)

/-- Parts one after the other. -/
def all : List Pattern → Pattern
  | [] => empty
  | [p] => p
  | p :: ps => seq p (all ps)

/-- Any of several. -/
def any : List Pattern → Pattern
  | [] => never
  | [p] => p
  | p :: ps => alt p (any ps)

/-! ### Notation -/

/-- A character of a class as it is written there. -/
def classChar (c : Char) : List Char :=
  if c = '.' then ['\\', '.'] else [c]

/-- How often something is repeated. -/
def quantifier : (least : Nat) → (more : Option Nat) → String
  | 0, some 1 => "?"
  | 1, none => "+"
  | 0, none => "*"
  | n, none => "\x7b" ++ toString n ++ ",\x7d"
  | n, some 0 => "\x7b" ++ toString n ++ "\x7d"
  | n, some m => "\x7b" ++ toString n ++ "," ++ toString (n + m) ++ "\x7d"

/-- Puts a text in parentheses where that is needed. -/
def parenthesize (needed : Bool) (s : String) : String :=
  if needed then "(" ++ s ++ ")" else s

/-- Whether a pattern has to be put in parentheses inside a sequence. -/
def isAlt : Pattern → Bool
  | alt .. => true
  | _ => false

/-- Whether a pattern has to be put in parentheses to be repeated. -/
def isCompound : Pattern → Bool
  | seq .. => true
  | alt .. => true
  | _ => false

/-- The pattern in the usual notation. -/
def source : Pattern → String
  | never => "[]"
  | empty => ""
  | oneOf [(a, b)] =>
    if a = b then String.singleton a
    else "[" ++ String.ofList (classChar a ++ '-' :: classChar b) ++ "]"
  | oneOf ranges =>
    let written := ranges.flatMap fun (a, b) =>
      if a = b then classChar a else classChar a ++ '-' :: classChar b
    "[" ++ String.ofList written ++ "]"
  | seq p q => parenthesize p.isAlt p.source ++ parenthesize q.isAlt q.source
  | alt p q => p.source ++ "|" ++ q.source
  | times p least more => parenthesize p.isCompound p.source ++ quantifier least more

/-! ### Deciding -/

/-- Whether the empty text belongs to a pattern. -/
def nullable : Pattern → Bool
  | never => false
  | empty => true
  | oneOf _ => false
  | seq p q => p.nullable && q.nullable
  | alt p q => p.nullable || q.nullable
  | times p least _ => least == 0 || p.nullable

/-- A sequence, simplified if its first part is trivial. -/
def andThen : Pattern → Pattern → Pattern
  | never, _ => never
  | empty, q => q
  | p, q => seq p q

/-- Alternatives, simplified if the left one is trivial. -/
def orElse : Pattern → Pattern → Pattern
  | never, q => q
  | p, never => p
  | p, q => alt p q

/-- What has to follow a character. -/
def derivative (c : Char) : Pattern → Pattern
  | never => never
  | empty => never
  | oneOf ranges => if ranges.any fun (a, b) => a ≤ c && c ≤ b then empty else never
  | seq p q =>
    if p.nullable then orElse (andThen (derivative c p) q) (derivative c q)
    else andThen (derivative c p) q
  | alt p q => orElse (derivative c p) (derivative c q)
  | times _ 0 (some 0) => never
  | times p 0 (some (m + 1)) => andThen (derivative c p) (times p 0 (some m))
  | times p 0 none => andThen (derivative c p) (times p 0 none)
  | times p (n + 1) more => andThen (derivative c p) (times p n more)

/-- Whether a whole text belongs to a pattern. -/
def accepts (p : Pattern) (cs : List Char) : Bool :=
  (cs.foldl (fun q c => derivative c q) p).nullable

end Pattern

end GuestXml.Text
