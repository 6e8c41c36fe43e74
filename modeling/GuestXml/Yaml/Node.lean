import GuestXml.Yaml.Token

/-!
# From tokens to nodes

A node is a scalar, a sequence or a mapping of nodes, or stands for a node that has an anchor.
Where a node may stand but none does, there is an empty plain scalar. Anchors are known by
numbers: a new one has the number of different names that have been given before it.
-/

namespace GuestXml.Yaml

/-- A node of a document. -/
inductive Node where
  | scalar (style : Style) (tag? : Option String) (text : String)
  | sequence (items : List Node)
  | mapping (entries : List (Node × Node))
  /-- The node with an anchor. -/
  | alias (anchor : Nat)

/-- What stands where nothing does. -/
def Node.empty : Node :=
  .scalar .plain none ""

/-- A node with an anchor. -/
structure Anchored where
  /-- The number of anchors, of whatever names, in front of this one. -/
  place : Nat
  anchor : Nat
  node : Node

/-! ### Reading -/

/-- What is left to be read, and what has been named. -/
structure NodeState where
  tokens : List Token
  /-- The names of the anchors met so far with their numbers, latest first. -/
  names : List (String × Nat) := []
  anchored : List Anchored := []

/-- Reading of nodes, which may fail. -/
abbrev NodeReader := StateT NodeState Option

namespace NodeReader

/-- The next token. -/
def peek : NodeReader Token := do
  match (← get).tokens with
  | t :: _ => return t
  | [] => failure

/-- Passes over a token. -/
def skip : NodeReader Unit :=
  modify fun s => { s with tokens := s.tokens.drop 1 }

/-- Passes over a token if it is the next one, and says whether it is. -/
def skipIf (t : Token) : NodeReader Bool := do
  if (← peek) = t then
    skip
    return true
  else return false

/-- Passes over the comma in front of what is not the first in brackets, and says whether it
is there. -/
def comma (first : Bool) : NodeReader Bool :=
  if first then return true else skipIf .flowEntry

/-- Reads a node, unless the next token is one of those in front of which there is none. -/
def unlessNext (ts : List Token) (read : NodeReader Node) : NodeReader Node := do
  if ts.contains (← peek) then return .empty else read

/-- Reads a node behind a sign, if the sign is there and a node follows. -/
def behind (t : Token) (ts : List Token) (read : NodeReader Node) : NodeReader Node := do
  if ← skipIf t then unlessNext ts read else return .empty

/-- Gives a number to an anchor, and reads the node that has it. -/
def named (name : String) (read : NodeReader Node) : NodeReader Node := do
  let names := (← get).names
  let anchor := (names.map (·.1)).eraseDups.length
  modify fun s => { s with names := (name, anchor) :: names }
  let node ← read
  modify fun s => { s with anchored := { place := names.length, anchor, node } :: s.anchored }
  return node

/-- Reads an anchor, if there is one. -/
def anchor? : NodeReader (Option String) := do
  match ← peek with
  | .anchor name => do
    skip
    return some name
  | _ => return none

/-- Reads a tag, if there is one. -/
def tag? : NodeReader (Option (String × String)) := do
  match ← peek with
  | .tag handle rest => do
    skip
    return some (handle, rest)
  | _ => return none

/-- Reads the properties in front of a node: an anchor and a tag, in any order. -/
def properties : NodeReader (Option String × Option (String × String)) := do
  match ← anchor? with
  | some name => return (some name, ← tag?)
  | none =>
    match ← tag? with
    | some t => return (← anchor?, some t)
    | none => return (none, none)

end NodeReader

/-- What the handles of tags stand for. -/
abbrev TagHandles := List (String × String)

namespace TagHandles

/-- The handles that every document has. -/
def standard : TagHandles :=
  [("!", "!"), ("!!", "tag:yaml.org,2002:")]

/-- The tag that a handle and a rest stand for; the handle has to be known. -/
def expand? (handles : TagHandles) : String × String → Option String
  | ("", rest) => some rest
  | (handle, rest) => (handles.lookup handle).map (· ++ rest)

/-- The tag of a node, if it has one. -/
def tagOf? (handles : TagHandles) : Option (String × String) → Option (Option String)
  | none => some none
  | some parts => (handles.expand? parts).map some

end TagHandles

section Reading

open NodeReader

variable (handles : TagHandles)

mutual

/-- Reads a node. Block collections stand `inBlock` only, and a sequence that is no deeper than
the mapping around it only as a key or value of that mapping. -/
def readNode (inBlock indentless : Bool) : Nat → NodeReader Node
  | 0 => failure
  | fuel + 1 => do
    match ← peek with
    | .alias name => do
      skip
      match (← get).names.lookup name with
      | some anchor => return .alias anchor
      | none => failure
    | _ => do
      let (name?, parts?) ← properties
      let content := readContent inBlock indentless (name?.isSome || parts?.isSome)
        (← handles.tagOf? parts?) fuel
      match name? with
      | some name => named name content
      | none => content

/-- Reads a node behind its properties. With any of those, nothing more is needed. -/
def readContent (inBlock indentless hasProperties : Bool) (tag? : Option String) :
    Nat → NodeReader Node
  | 0 => failure
  | fuel + 1 => do
    match ← peek, inBlock, indentless with
    | .blockEntry, _, true => return .sequence (← readIndentless fuel)
    | .scalar style text, _, _ => do
      skip
      return .scalar style (tag?.filter (· ≠ "!")) text
    | .flowSequence, _, _ => do
      skip
      return .sequence (← readFlowItems true fuel)
    | .flowMapping, _, _ => do
      skip
      return .mapping (← readFlowEntries true fuel)
    | .blockSequence, true, _ => do
      skip
      return .sequence (← readBlockItems fuel)
    | .blockMapping, true, _ => do
      skip
      return .mapping (← readBlockEntries fuel)
    | _, _, _ => if hasProperties then return .scalar .plain tag? "" else failure

/-- Reads the items of a block sequence and its end. -/
def readBlockItems : Nat → NodeReader (List Node)
  | 0 => failure
  | fuel + 1 => do
    match ← peek with
    | .blockEntry => do
      skip
      let item ← unlessNext [.blockEntry, .blockEnd] (readNode true false fuel)
      return item :: (← readBlockItems fuel)
    | .blockEnd => do
      skip
      return []
    | _ => failure

/-- Reads the items of a block sequence that is no deeper than the mapping around it. -/
def readIndentless : Nat → NodeReader (List Node)
  | 0 => failure
  | fuel + 1 => do
    match ← peek with
    | .blockEntry => do
      skip
      let item ← unlessNext [.blockEntry, .key, .value, .blockEnd] (readNode true false fuel)
      return item :: (← readIndentless fuel)
    | _ => return []

/-- Reads the entries of a block mapping and its end. -/
def readBlockEntries : Nat → NodeReader (List (Node × Node))
  | 0 => failure
  | fuel + 1 => do
    match ← peek with
    | .key => do
      skip
      let key ← unlessNext [.key, .value, .blockEnd] (readNode true true fuel)
      let value ← behind .value [.key, .value, .blockEnd] (readNode true true fuel)
      return (key, value) :: (← readBlockEntries fuel)
    | .blockEnd => do
      skip
      return []
    | _ => failure

/-- Reads the items of a sequence in brackets and its end. An item with a key is a mapping;
if the key is missing, the token in its place is passed over. -/
def readFlowItems (first : Bool) : Nat → NodeReader (List Node)
  | 0 => failure
  | fuel + 1 => do
    if ← skipIf .flowSequenceEnd then return []
    else if ← comma first then
      match ← peek with
      | .flowSequenceEnd => do
        skip
        return []
      | .key => do
        skip
        let key ←
          if [Token.value, .flowEntry, .flowSequenceEnd].contains (← peek) then do
            skip
            pure Node.empty
          else readNode false false fuel
        let value ← behind .value [.flowEntry, .flowSequenceEnd] (readNode false false fuel)
        return .mapping [(key, value)] :: (← readFlowItems false fuel)
      | _ => do
        let item ← readNode false false fuel
        return item :: (← readFlowItems false fuel)
    else failure

/-- Reads the entries of a mapping in braces and its end. -/
def readFlowEntries (first : Bool) : Nat → NodeReader (List (Node × Node))
  | 0 => failure
  | fuel + 1 => do
    if ← skipIf .flowMappingEnd then return []
    else if ← comma first then
      match ← peek with
      | .flowMappingEnd => do
        skip
        return []
      | .key => do
        skip
        let key ← unlessNext [.value, .flowEntry, .flowMappingEnd] (readNode false false fuel)
        let value ← behind .value [.flowEntry, .flowMappingEnd] (readNode false false fuel)
        return (key, value) :: (← readFlowEntries false fuel)
      | _ => do
        let key ← readNode false false fuel
        return (key, .empty) :: (← readFlowEntries false fuel)
    else failure

end

end Reading

end GuestXml.Yaml
