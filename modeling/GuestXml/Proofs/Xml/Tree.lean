import GuestXml.Xml.Tree

/-!
# Trees seen through their elements

The height of an element and the number of elements below it depend on its child elements
alone: `height_le_succ_iff` and `descendants_eq`. Text between the elements plays no part, and
can be left out (`withoutText`).
-/

namespace GuestXml.Xml

@[simp] theorem Node.element?_element (e : Element) : (Node.element e).element? = some e := rfl

@[simp] theorem Node.element?_text (s : String) : (Node.text s).element? = none := rfl

@[simp] theorem Node.text?_element (e : Element) : (Node.element e).text? = none := rfl

@[simp] theorem Node.text?_text (s : String) : (Node.text s).text? = some s := rfl

namespace Element

/-- The number of elements in some trees, their roots included. -/
def sizes : List Element → Nat
  | [] => 0
  | e :: es => e.descendants + 1 + sizes es

@[simp] theorem sizes_nil : sizes [] = 0 := rfl

@[simp] theorem sizes_cons (e : Element) (es : List Element) :
    sizes (e :: es) = e.descendants + 1 + sizes es := rfl

@[simp] theorem sizes_append (es fs : List Element) : sizes (es ++ fs) = sizes es + sizes fs := by
  induction es with
  | nil => simp
  | cons e es ih =>
    rw [List.cons_append, sizes_cons, sizes_cons, ih]
    omega

theorem sizes_pos {es : List Element} (h : es ≠ []) : 0 < sizes es := by
  obtain ⟨e, es, rfl⟩ := List.exists_cons_of_ne_nil h
  rw [sizes_cons]
  omega

theorem elementCount_eq (nodes : List Node) :
    elementCount nodes = sizes (nodes.filterMap Node.element?) := by
  induction nodes with
  | nil => rfl
  | cons node nodes ih => cases node <;> simp [elementCount, List.filterMap_cons, ih]

theorem descendants_eq (e : Element) : e.descendants = sizes e.childElements := by
  obtain ⟨name, attributes, children⟩ := e
  rw [descendants, elementCount_eq]
  rfl

theorem heights_append (nodes nodes' : List Node) :
    heights (nodes ++ nodes') = max (heights nodes) (heights nodes') := by
  induction nodes with
  | nil => simp [heights]
  | cons node nodes ih =>
    cases node with
    | element e => rw [List.cons_append, heights, heights, ih, Nat.max_assoc]
    | text s => rw [List.cons_append, heights, heights, ih]

theorem heights_le_iff {nodes : List Node} {n : Nat} :
    heights nodes ≤ n ↔ ∀ e ∈ nodes.filterMap Node.element?, e.height ≤ n := by
  induction nodes with
  | nil => simp [heights]
  | cons node nodes ih =>
    cases node with
    | element e =>
      rw [heights, Nat.max_le, ih]
      simp
    | text s =>
      rw [heights, ih]
      simp

theorem height_le_succ_iff {e : Element} {n : Nat} :
    e.height ≤ n + 1 ↔ ∀ c ∈ e.childElements, c.height ≤ n := by
  obtain ⟨name, attributes, children⟩ := e
  rw [height, Nat.succ_le_succ_iff, heights_le_iff]
  rfl

theorem height_pos (e : Element) : 0 < e.height := by
  obtain ⟨name, attributes, children⟩ := e
  simp [height]

/-! ### Leaving text out -/

mutual
/-- The element without any text, at any depth. -/
def withoutText : Element → Element
  | ⟨name, attributes, children⟩ => ⟨name, attributes, elementsOnly children⟩

/-- The elements among some nodes, without any text. -/
def elementsOnly : List Node → List Node
  | [] => []
  | .element e :: nodes => .element e.withoutText :: elementsOnly nodes
  | .text _ :: nodes => elementsOnly nodes
end

theorem filterMap_elementsOnly (nodes : List Node) :
    (elementsOnly nodes).filterMap Node.element? =
      (nodes.filterMap Node.element?).map withoutText := by
  induction nodes with
  | nil => rfl
  | cons node nodes ih => cases node <;> simp [elementsOnly, List.filterMap_cons, ih]

theorem childElements_withoutText (e : Element) :
    e.withoutText.childElements = e.childElements.map withoutText := by
  obtain ⟨name, attributes, children⟩ := e
  rw [withoutText]
  exact filterMap_elementsOnly children

end Element

end GuestXml.Xml
