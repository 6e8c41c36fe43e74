import GuestXml.Text.Character
import GuestXml.Xml.Attribute
import GuestXml.Xml.Tree

/-!
# Documents

A document is read event by event into its root element. Text is kept as it is, save that
a run of text that is blank only separates elements and is left out; text outside the root
is checked for its references and then left out as well. Elements nest at most as deep as
a limit says, the root being at depth one, and a limit of zero counts as one.
-/

namespace GuestXml.Xml.Document

/-- An element whose end tag has not come yet; its content has the last node first. -/
structure OpenElement where
  name : String
  attributes : List (String × String)
  content : List Node := []

/-- The element, now that its end tag has come. -/
def OpenElement.close (e : OpenElement) : Element :=
  { name := e.name, attributes := e.attributes, children := e.content.reverse }

/-- Adds a node to the content. -/
def OpenElement.push (e : OpenElement) (n : Node) : OpenElement :=
  { e with content := n :: e.content }

/-- What has been read of a document: its open elements, innermost first, and its root
once that is complete. -/
structure Progress where
  stack : List OpenElement := []
  root? : Option Element := none

namespace Progress

/-- Puts a complete element into the innermost open one, or makes it the root. -/
def attach (p : Progress) (e : Element) : Except Malformation Progress :=
  match p.stack, p.root? with
  | parent :: outer, _ => .ok { p with stack := parent.push (.element e) :: outer }
  | [], none => .ok { p with root? := some e }
  | [], some _ => .error (.secondRoot e.name)

/-- Puts text into the innermost open element; outside all elements it is left out. -/
def addText (p : Progress) (s : String) : Progress :=
  match p.stack with
  | parent :: outer => { p with stack := parent.push (.text s) :: outer }
  | [] => p

/-- Takes in one event. -/
def step (maxDepth : Nat) (p : Progress) : Event → Except Error Progress
  | .startTag name attributes =>
    if maxDepth ≤ p.stack.length then .error (.depthExceeded maxDepth)
    else
      match Attribute.parse attributes with
      | .ok as => .ok { p with stack := ⟨String.ofList name, as, []⟩ :: p.stack }
      | .error m => .error (.malformed m)
  | .emptyTag name attributes =>
    if maxDepth ≤ p.stack.length then .error (.depthExceeded maxDepth)
    else
      match Attribute.parse attributes with
      | .ok as => (p.attach { name := String.ofList name, attributes := as }).mapError .malformed
      | .error m => .error (.malformed m)
  | .endTag name =>
    match p.stack with
    | e :: outer =>
      if e.name = String.ofList name then
        (attach { p with stack := outer } e.close).mapError .malformed
      else .error (.malformed (.endTag (String.ofList name)))
    | [] => .error (.malformed (.endTag (String.ofList name)))
  | .text written =>
    match unescape written with
    | .ok cs => .ok (if cs.all Text.isBlank then p else p.addText (String.ofList cs))
    | .error m => .error (.malformed m)
  | .verbatim content => .ok (p.addText (String.ofList content))
  | .ignored => .ok p

/-- The root, once the text has come to its end. -/
def finish (p : Progress) : Except Error Element :=
  match p.stack, p.root? with
  | e :: _, _ => .error (.malformed (.unclosed e.name))
  | [], some root => .ok root
  | [], none => .error (.malformed .noRoot)

end Progress

/-- Reads on from a position. -/
def parseFrom (maxDepth : Nat) (p : Progress) (cs : List Char) : Except Error Element :=
  match _h : Event.next? cs with
  | .error m => .error (.malformed m)
  | .ok none => p.finish
  | .ok (some (event, rest)) =>
    match p.step maxDepth event with
    | .error e => .error e
    | .ok p' => parseFrom maxDepth p' rest
termination_by cs.length
decreasing_by exact Event.length_lt_of_next? _h

/-- Reading takes the event that begins at the position and reads on behind it. -/
theorem parseFrom_eq (maxDepth : Nat) (p : Progress) (cs : List Char) :
    parseFrom maxDepth p cs =
      match Event.next? cs with
      | .error m => .error (.malformed m)
      | .ok none => p.finish
      | .ok (some (event, rest)) =>
        match p.step maxDepth event with
        | .error e => .error e
        | .ok p' => parseFrom maxDepth p' rest := by
  rw [parseFrom]
  split <;> simp_all

/-- A text without a byte order mark in front. -/
def dropMark : List Char → List Char
  | c :: r => if c = '\uFEFF' then r else c :: r
  | [] => []

/-- Nesting allowed unless something else is said. -/
def defaultMaxDepth : Nat := 64

/-- Reads the root element of a document. -/
def parse (maxDepth : Nat) (xml : String) : Except Error Element :=
  parseFrom (max maxDepth 1) {} (dropMark xml.toList)

end GuestXml.Xml.Document
