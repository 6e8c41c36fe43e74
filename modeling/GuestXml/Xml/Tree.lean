import GuestXml.Xml.Reference

/-!
# XML trees

An element has a name, attributes in document order, and content, which is a list of
elements and runs of text. Comments, processing instructions and declarations are no part
of a tree. Looking up and replacing an attribute go by its name, and the text of an element
is what its own runs of text say, without those of the elements inside it.

An element is written as a start tag, its content and an end tag, or as one tag if it has
no content at all. In indented form every tag but the first stands on a line of its own,
except where text comes before it, so that no text is changed.
-/

namespace GuestXml.Xml

mutual
/-- An element with attributes and content in document order. -/
structure Element where
  name : String := ""
  attributes : List (String × String) := []
  children : List Node := []

/-- A part of an element's content. -/
inductive Node where
  | element (e : Element)
  | text (s : String)
end

instance : Inhabited Element := ⟨{}⟩

/-! ### Equality -/

mutual
/-- Two elements are compared by name, attributes and content. -/
def Element.decEq : (a b : Element) → Decidable (a = b)
  | ⟨n, as, cs⟩, ⟨m, bs, ds⟩ =>
    if hn : n = m then
      if ha : as = bs then
        match Node.listDecEq cs ds with
        | isTrue hc => isTrue (by subst hn ha hc; rfl)
        | isFalse hc => isFalse (by intro h; cases h; exact hc rfl)
      else isFalse (by intro h; cases h; exact ha rfl)
    else isFalse (by intro h; cases h; exact hn rfl)

/-- Two nodes are equal if both are elements or both are text, and these are equal. -/
def Node.decEq : (a b : Node) → Decidable (a = b)
  | .element a, .element b =>
    match Element.decEq a b with
    | isTrue h => isTrue (by subst h; rfl)
    | isFalse h => isFalse (by intro h'; cases h'; exact h rfl)
  | .text a, .text b =>
    if h : a = b then isTrue (by rw [h]) else isFalse (by intro h'; cases h'; exact h rfl)
  | .element _, .text _ => isFalse (by intro h; cases h)
  | .text _, .element _ => isFalse (by intro h; cases h)

/-- Contents are compared node by node. -/
def Node.listDecEq : (a b : List Node) → Decidable (a = b)
  | [], [] => isTrue rfl
  | [], _ :: _ => isFalse (by intro h; cases h)
  | _ :: _, [] => isFalse (by intro h; cases h)
  | a :: as, b :: bs =>
    match Node.decEq a b with
    | isFalse h => isFalse (by intro h'; cases h'; exact h rfl)
    | isTrue h =>
      match Node.listDecEq as bs with
      | isTrue h' => isTrue (by rw [h, h'])
      | isFalse h' => isFalse (by intro h''; cases h''; exact h' rfl)
end

instance : DecidableEq Element := Element.decEq
instance : DecidableEq Node := Node.decEq

/-! ### Parts of a tree -/

/-- The element a node is, if it is one. -/
def Node.element? : Node → Option Element
  | .element e => some e
  | .text _ => none

/-- The text a node is, if it is text. -/
def Node.text? : Node → Option String
  | .element _ => none
  | .text s => some s

namespace Element

/-- The elements among the children, without the text between them. -/
def childElements (e : Element) : List Element :=
  e.children.filterMap Node.element?

/-- The first child element with a name. -/
def child? (e : Element) (name : String) : Option Element :=
  e.childElements.find? (·.name == name)

/-- The element's own runs of text, joined. -/
def text (e : Element) : String :=
  String.join (e.children.filterMap Node.text?)

/-- The value of the first attribute with a name. -/
def attribute? (e : Element) (name : String) : Option String :=
  (e.attributes.find? (·.1 == name)).map (·.2)

/-! ### Changing an element -/

/-- Gives the first entry of a name a new value, or adds the entry at the end. -/
def assign (name value : String) : List (String × String) → List (String × String)
  | [] => [(name, value)]
  | (k, v) :: r => if k = name then (k, value) :: r else (k, v) :: assign name value r

/-- Sets an attribute, in place if it is there already. -/
def setAttribute (e : Element) (name value : String) : Element :=
  { e with attributes := assign name value e.attributes }

/-- Adds a child element at the end. -/
def pushElement (e child : Element) : Element :=
  { e with children := e.children ++ [.element child] }

/-- Adds a run of text at the end. -/
def pushText (e : Element) (s : String) : Element :=
  { e with children := e.children ++ [.text s] }

/-- Adds the attributes and the content of another element, whose name is not used. -/
def append (e other : Element) : Element :=
  { e with
    attributes := other.attributes.foldl (fun as a => assign a.1 a.2 as) e.attributes
    children := e.children ++ other.children }

/-! ### Measures -/

mutual
/-- The number of elements on the longest path down from an element, itself included. -/
def height : Element → Nat
  | ⟨_, _, cs⟩ => heights cs + 1

/-- The greatest height of the elements in a list of nodes. -/
def heights : List Node → Nat
  | [] => 0
  | .element e :: r => max e.height (heights r)
  | .text _ :: r => heights r
end

mutual
/-- The number of elements below an element. -/
def descendants : Element → Nat
  | ⟨_, _, cs⟩ => elementCount cs

/-- The number of elements in a list of nodes, at any depth. -/
def elementCount : List Node → Nat
  | [] => 0
  | .element e :: r => e.descendants + 1 + elementCount r
  | .text _ :: r => elementCount r
end

mutual
/-- The greatest number of start tags at one place in the written form of an element that have
no end tag yet. -/
def openTags : Element → Nat
  | ⟨_, _, []⟩ => 0
  | ⟨_, _, n :: ns⟩ => openTagsWithin (n :: ns) + 1

/-- The same for the content of an element. -/
def openTagsWithin : List Node → Nat
  | [] => 0
  | .element e :: r => max e.openTags (openTagsWithin r)
  | .text _ :: r => openTagsWithin r
end

/-! ### Written elements -/

/-- The written form of the attributes. -/
def writtenAttributes (as : List (String × String)) : List Char :=
  as.flatMap fun (name, value) =>
    ' ' :: name.toList ++ '=' :: '"' :: escape value.toList ++ ['"']

/-- The line break before a tag at a depth; none in compact form. -/
def lineBreak (indent? : Option Nat) (depth : Nat) : List Char :=
  match indent? with
  | some indent => '\n' :: List.replicate (indent * depth) ' '
  | none => []

mutual
/-- The written form of an element at a depth, without the line break before it. -/
def written (indent? : Option Nat) (depth : Nat) : Element → List Char
  | ⟨name, as, []⟩ => '<' :: name.toList ++ writtenAttributes as ++ ['/', '>']
  | ⟨name, as, n :: ns⟩ =>
    '<' :: name.toList ++ writtenAttributes as ++ '>' ::
      writtenContent indent? depth true (n :: ns) ++ '<' :: '/' :: name.toList ++ ['>']

/-- The written form of the content of an element at a depth, with the line break before
its end tag. `afterTag` says whether a tag was written last. -/
def writtenContent (indent? : Option Nat) (depth : Nat) : (afterTag : Bool) → List Node → List Char
  | afterTag, [] => if afterTag then lineBreak indent? depth else []
  | afterTag, .element e :: r =>
    (if afterTag then lineBreak indent? (depth + 1) else []) ++ written indent? (depth + 1) e ++
      writtenContent indent? depth true r
  | _, .text s :: r => escape s.toList ++ writtenContent indent? depth false r
end

/-- The element on one line. -/
def toXml (e : Element) : String :=
  String.ofList (written none 0 e)

/-- The element with a number of spaces for each level of nesting. -/
def toXmlPretty (indent : Nat) (e : Element) : String :=
  String.ofList (written (some indent) 0 e)

end Element

end GuestXml.Xml
