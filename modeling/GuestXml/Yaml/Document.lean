import GuestXml.Number.Bounded
import GuestXml.Yaml.Node
import GuestXml.Yaml.Scanner

/-!
# Documents of YAML

A text holds one document, in front of which directives may stand, or none, which counts as an
empty scalar. What its nodes say is read with the anchors at hand.
-/

namespace GuestXml.Yaml

/-- A document. -/
structure Document where
  root : Node := .empty
  anchored : List Anchored := []

namespace Document

/-! ### Reading -/

/-- Reads directives: a version at most, which is 1.1 or 1.2, and handles, each once at most. -/
def directives? (versionGiven : Bool) (handles : TagHandles) :
    List Token → Option (TagHandles × List Token)
  | .version major minor :: ts =>
    if versionGiven || major ≠ 1 || (minor ≠ 1 && minor ≠ 2) then none
    else directives? true handles ts
  | .tagShorthand handle start :: ts =>
    if (handles.lookup handle).isSome then none
    else directives? versionGiven (handles ++ [(handle, start)]) ts
  | ts => some (handles ++ TagHandles.standard, ts)

/-- Reads the content of a document up to the end of the text. Further signs of its end may
follow, but no further document. -/
def content? (handles : TagHandles) (ts : List Token) : Option Document := do
  let (root, s) ← (readNode handles true false (2 * ts.length + 2)).run { tokens := ts }
  if s.tokens.dropWhile (· = .documentEnd) = [.streamEnd] then
    return { root, anchored := s.anchored }
  else none

/-- Reads the tokens of a text. -/
def ofTokens? (ts : List Token) : Option Document :=
  match ts with
  | [.streamEnd] => some {}
  | .version .. :: _ | .tagShorthand .. :: _ | .documentStart :: _ => do
    match ← directives? false [] ts with
    | (handles, .documentStart :: ts) =>
      if ts.dropWhile (· = .documentEnd) = [.streamEnd] then return {} else content? handles ts
    | _ => none
  | ts => content? TagHandles.standard ts

/-- Reads a text. -/
def ofText? (s : String) : Option Document := do
  ofTokens? (← tokens? s.toList)

/-! ### Values -/

/-- The node itself, or the one that it stands for: of those with the number of the anchor,
the last one. -/
def resolve (d : Document) : Node → Node
  | .alias anchor =>
    let later (a : Anchored) (b : Option Anchored) : Option Anchored :=
      if a.anchor = anchor && b.all (·.place < a.place) then some a else b
    ((d.anchored.foldr later none).map (·.node)).getD .empty
  | node => node

/-- The entries of a mapping, in which every key is a scalar. An empty plain scalar has none. -/
def entries? (d : Document) (node : Node) : Option (List (String × Node)) :=
  match d.resolve node with
  | .mapping entries => entries.mapM fun (key, value) =>
    match d.resolve key with
    | .scalar _ _ text => some (text, value)
    | _ => none
  | .scalar .plain _ "" => some []
  | _ => none

/-- The text of a scalar that can be more than a string: a plain one, or a literal one with
the tag in question. -/
def word? (d : Document) (tag : String) (node : Node) : Option String :=
  match d.resolve node with
  | .scalar .plain _ text => some text
  | .scalar .literal (some tag') text => if tag' = tag then some text else none
  | _ => none

/-- A truth value. -/
def bool? (d : Document) (node : Node) : Option Bool := do
  let word ← d.word? "tag:yaml.org,2002:bool" node
  if ["true", "True", "TRUE"].contains word then some true
  else if ["false", "False", "FALSE"].contains word then some false
  else none

/-- An unsigned number in decimal without zeros in front, or in another base behind `0x`,
`0o` or `0b`. -/
def numeral? (cs : List Char) : Option Nat :=
  match cs with
  | '0' :: 'x' :: ds => Number.numeral? 16 ds
  | '0' :: 'o' :: ds => Number.numeral? 8 ds
  | '0' :: 'b' :: ds => Number.numeral? 2 ds
  | ['0'] => some 0
  | '0' :: _ => none
  | ds => Number.numeral? 10 ds

/-- An unsigned number of 64 bits, with or without a plus sign. -/
def nat? (d : Document) (node : Node) : Option Nat := do
  let word ← d.word? "tag:yaml.org,2002:int" node
  let digits := match word.toList with
    | '+' :: ds => ds
    | ds => ds
  (numeral? digits).filter (· < 18446744073709551616)

end Document

end GuestXml.Yaml
