import GuestXml.Number.Bounded
import GuestXml.Yaml.Token

/-!
# Anchors, tags and directives

Names for nodes, and the words that say of what kind a node is. A tag is written in full
between angle brackets, or as a handle and the rest; directives in front of a document say
what handles stand for.
-/

namespace GuestXml.Yaml

open GuestXml.Number (digitValue? numeral?)

/-! ### Anchors -/

/-- Reads the name of an anchor or an alias behind its sign. -/
def anchorName? (cs : List Char) : Option (List Char × List Char) :=
  let name := cs.takeWhile isNameChar
  let r := cs.dropWhile isNameChar
  if !name.isEmpty && (endsWord r || r.head?.any ("?:,]\x7d%@`".toList.contains ·)) then
    some (name, r)
  else none

/-! ### Tags -/

/-- The characters of tags other than those of names; commas and brackets are among them in a
tag that is written in full. -/
def isTagSign (full : Bool) (c : Char) : Bool :=
  ";/?:@&=+$.!~*'()".toList.contains c || (full && ",[]".toList.contains c)

/-- The number of bytes of a character whose first byte is given. -/
def byteCount? (first : Nat) : Option Nat :=
  if first < 0x80 then some 1
  else if first < 0xC0 then none
  else if first < 0xE0 then some 2
  else if first < 0xF0 then some 3
  else if first < 0xF8 then some 4
  else none

/-- Reads the characters of a tag, of which some are given by bytes in hexadecimal behind
percent signs. `pending` bytes of the current character are still to come. What is not ASCII
is only known as such. -/
def tagText? (full : Bool) (pending : Nat) : List Char → Option (List Char × List Char)
  | '%' :: high :: low :: r => do
    let byte := (← digitValue? 16 high) * 16 + (← digitValue? 16 low)
    if pending = 0 then
      let count ← byteCount? byte
      let (text, r) ← tagText? full (count - 1) r
      return (if count = 1 then Char.ofNat byte :: text else '\ufffd' :: text, r)
    else if byte / 64 = 2 then tagText? full (pending - 1) r
    else none
  | cs =>
    if pending ≠ 0 then none
    else
      match cs with
      | [] => some ([], [])
      | c :: r =>
        if c = '%' then none
        else if isNameChar c || isTagSign full c then
          (tagText? full 0 r).map fun (text, r) => (c :: text, r)
        else some ([], c :: r)

/-- Reads a tag behind its exclamation mark: its handle, the rest of it, and what is left.
The handle of a tag that is written in full is empty. -/
def tagParts? (cs : List Char) : Option (List Char × List Char × List Char) :=
  match cs with
  | '<' :: r => do
    match ← tagText? true 0 r with
    | ([], _) => none
    | (text, '>' :: r) => return ([], text, r)
    | _ => none
  | cs => do
    let word := cs.takeWhile isNameChar
    match cs.dropWhile isNameChar with
    | '!' :: r => do
      let (text, r) ← tagText? false 0 r
      if text.isEmpty then none else return ('!' :: word ++ ['!'], text, r)
    | r => do
      let (text, r) ← tagText? false 0 r
      match word ++ text with
      | [] => return ([], ['!'], r)
      | text => return (['!'], text, r)

/-- Reads a tag behind its exclamation mark. -/
def tag? (inFlow : Bool) (cs : List Char) : Option (Token × List Char) := do
  let (handle, text, r) ← tagParts? cs
  if endsWord r || (inFlow && r.head? == some ',') then
    return (.tag (String.ofList handle) (String.ofList text), r)
  else none

/-! ### Directives -/

/-- Reads a part of a version, of nine digits at most. -/
def versionPart? (cs : List Char) : Option (Nat × List Char) :=
  let ds := cs.takeWhile Char.isDigit
  if 9 < ds.length then none else (numeral? 10 ds).map (·, cs.dropWhile Char.isDigit)

/-- Reads a version: two numbers with a point between them. -/
def version? (cs : List Char) : Option (Token × List Char) := do
  let (major, r) ← versionPart? (cs.dropWhile isSpace)
  match r with
  | '.' :: r =>
    let (minor, r) ← versionPart? r
    return (.version major minor, r)
  | _ => none

/-- Reads a handle and what it stands for. -/
def tagShorthand? (cs : List Char) : Option (Token × List Char) := do
  match cs.dropWhile isSpace with
  | '!' :: r =>
    let word := r.takeWhile isNameChar
    let (handle, r) ← match word, r.dropWhile isNameChar with
      | word, '!' :: r => some ('!' :: word ++ ['!'], r)
      | [], r => some (['!'], r)
      | _, _ => none
    if r.head?.any isSpace then
      let (start, r) ← tagText? true 0 (r.dropWhile isSpace)
      if start.isEmpty || !endsWord r then none
      else return (.tagShorthand (String.ofList handle) (String.ofList start), r)
    else none
  | _ => none

/-- Reads a directive behind its percent sign to the end of its line, which may hold a
comment. -/
def directive? (cs : List Char) : Option (Token × List Char) := do
  let name := String.ofList (cs.takeWhile isNameChar)
  let r := cs.dropWhile isNameChar
  let (token, r) ←
    if !endsWord r then none
    else if name = "YAML" then version? r
    else if name = "TAG" then tagShorthand? r
    else none
  let r := r.dropWhile isSpace
  let r := if r.head? = some '#' then dropLine r else r
  if endsLine r then return (token, dropBreak r) else none

end GuestXml.Yaml
