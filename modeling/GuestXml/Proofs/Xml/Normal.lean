import GuestXml.Proofs.Xml.Tree
import GuestXml.Text.Character

/-!
# Normal form of a tree

A document does not say where one run of text ends and the next begins, and text that is
blank only separates elements. The normal form of a tree has every run of adjacent text
joined into one node and the blank ones left out; elements and attributes stay as they are.
Where no element has more than one text there is nothing to join, and such a tree is its own
normal form unless one of its texts is blank (`Element.normal_eq_self_iff`).
-/

namespace GuestXml

theorem Text.isBlankText_append (s t : String) :
    isBlankText (s ++ t) = (isBlankText s && isBlankText t) := by
  rw [isBlankText, String.toList_append, List.all_append]
  rfl

namespace Xml

/-- The nodes that a whole run of text becomes: none if it is blank. -/
def Node.ofRun (s : String) : List Node :=
  if Text.isBlankText s then [] else [.text s]

mutual
/-- The tree with its runs of text joined and the blank ones left out. -/
def Element.normal : Element → Element
  | ⟨name, as, cs⟩ => ⟨name, as, Node.normalFrom "" cs⟩

/-- The normal form of a content that comes behind some pending text. -/
def Node.normalFrom : (pending : String) → List Node → List Node
  | pending, [] => Node.ofRun pending
  | pending, .text s :: r => Node.normalFrom (pending ++ s) r
  | pending, .element e :: r => Node.ofRun pending ++ .element e.normal :: Node.normalFrom "" r
end

theorem Node.ofRun_of_isBlank {s : String} (h : Text.isBlankText s = true) : Node.ofRun s = [] :=
  if_pos h

theorem Node.ofRun_of_not_isBlank {s : String} (h : Text.isBlankText s = false) :
    Node.ofRun s = [.text s] :=
  if_neg (Bool.eq_false_iff.mp h)

@[simp] theorem Node.ofRun_empty : Node.ofRun "" = [] := rfl

/-! ### Texts -/

mutual
/-- The texts in a tree. -/
def Element.texts : Element → List String
  | ⟨_, _, cs⟩ => Node.texts cs

/-- The texts in some nodes. -/
def Node.texts : List Node → List String
  | [] => []
  | .text s :: r => s :: Node.texts r
  | .element e :: r => e.texts ++ Node.texts r
end

mutual
/-- No element of a tree has more than one text. -/
def Element.textsApart : Element → Bool
  | ⟨_, _, cs⟩ => (cs.filterMap Node.text?).length ≤ 1 && Node.allTextsApart cs

/-- No element in some nodes has more than one text. -/
def Node.allTextsApart : List Node → Bool
  | [] => true
  | .text _ :: r => Node.allTextsApart r
  | .element e :: r => e.textsApart && Node.allTextsApart r
end

theorem Node.texts_append (nodes nodes' : List Node) :
    Node.texts (nodes ++ nodes') = Node.texts nodes ++ Node.texts nodes' := by
  induction nodes with
  | nil => rfl
  | cons node nodes ih => cases node <;> simp [Node.texts, ih]

theorem Element.textsApart_iff {e : Element} :
    e.textsApart = true ↔
      (e.children.filterMap Node.text?).length ≤ 1 ∧ Node.allTextsApart e.children = true := by
  obtain ⟨name, as, cs⟩ := e
  rw [textsApart, Bool.and_eq_true, decide_eq_true_eq]

theorem Node.allTextsApart_iff {nodes : List Node} :
    Node.allTextsApart nodes = true ↔
      ∀ e ∈ nodes.filterMap Node.element?, e.textsApart = true := by
  induction nodes with
  | nil => simp [Node.allTextsApart]
  | cons node nodes ih => cases node <;> simp [Node.allTextsApart, ih]

/-! ### Nodes one by one -/

/-- The nodes that a node becomes where no text is next to it. -/
def Node.normal : Node → List Node
  | .element e => [.element e.normal]
  | .text s => Node.ofRun s

theorem Node.normalFrom_of_textless {nodes : List Node} (h : nodes.filterMap Node.text? = [])
    (pending : String) :
    Node.normalFrom pending nodes = Node.ofRun pending ++ nodes.flatMap Node.normal := by
  induction nodes generalizing pending with
  | nil => simp [Node.normalFrom]
  | cons node nodes ih =>
    cases node with
    | text s => simp at h
    | element e => simp [Node.normalFrom, Node.normal, ih (by simpa using h)]

/-- With one text at most, every node is on its own. -/
theorem Node.normalFrom_of_length_le {nodes : List Node}
    (h : (nodes.filterMap Node.text?).length ≤ 1) :
    Node.normalFrom "" nodes = nodes.flatMap Node.normal := by
  induction nodes with
  | nil => rfl
  | cons node nodes ih =>
    cases node with
    | text s =>
      have hnone : nodes.filterMap Node.text? = [] := by simpa using h
      rw [Node.normalFrom, Node.normalFrom_of_textless hnone, String.empty_append]
      rfl
    | element e =>
      rw [Node.normalFrom, ih h]
      rfl

/-! ### Trees that are in normal form -/

theorem Node.isBlank_of_mem_ofRun {run s : String} (h : s ∈ Node.texts (Node.ofRun run)) :
    Text.isBlankText s = false := by
  unfold Node.ofRun at h
  split at h
  · cases h
  · rename_i hrun
    rw [List.mem_singleton.mp h]
    exact Bool.eq_false_iff.mpr hrun

mutual
/-- The texts of a normal form are not blank. -/
theorem Element.isBlank_of_mem_normal :
    ∀ (e : Element), ∀ s ∈ e.normal.texts, Text.isBlankText s = false
  | ⟨_, _, cs⟩ => Node.isBlank_of_mem_normalFrom cs ""

theorem Node.isBlank_of_mem_normalFrom :
    ∀ (nodes : List Node) (pending : String), ∀ s ∈ Node.texts (Node.normalFrom pending nodes),
      Text.isBlankText s = false
  | [], _ => fun _ hs => Node.isBlank_of_mem_ofRun hs
  | .text t :: r, pending => Node.isBlank_of_mem_normalFrom r (pending ++ t)
  | .element e :: r, pending => by
    intro s hs
    rw [Node.normalFrom, Node.texts_append, Node.texts, List.mem_append, List.mem_append] at hs
    rcases hs with hs | hs | hs
    · exact Node.isBlank_of_mem_ofRun hs
    · exact Element.isBlank_of_mem_normal e s hs
    · exact Node.isBlank_of_mem_normalFrom r "" s hs
end

mutual
theorem Element.normal_of_not_isBlank :
    ∀ (e : Element), e.textsApart = true → (∀ s ∈ e.texts, Text.isBlankText s = false) →
      e.normal = e
  | ⟨name, as, cs⟩, hapart, hsolid => by
    obtain ⟨hcount, hall⟩ := Element.textsApart_iff.mp hapart
    rw [Element.normal, Node.normalFrom_of_length_le hcount,
      Node.flatMap_normal_of_not_isBlank cs hall hsolid]

theorem Node.flatMap_normal_of_not_isBlank :
    ∀ (nodes : List Node), Node.allTextsApart nodes = true →
      (∀ s ∈ Node.texts nodes, Text.isBlankText s = false) → nodes.flatMap Node.normal = nodes
  | [], _, _ => rfl
  | .text t :: r, hapart, hsolid => by
    have hrest := Node.flatMap_normal_of_not_isBlank r hapart
      fun s hs => hsolid s (List.mem_cons_of_mem t hs)
    rw [List.flatMap_cons, hrest, Node.normal,
      Node.ofRun_of_not_isBlank (hsolid t List.mem_cons_self)]
    rfl
  | .element e :: r, hapart, hsolid => by
    rw [Node.allTextsApart, Bool.and_eq_true] at hapart
    have helement := Element.normal_of_not_isBlank e hapart.1
      fun s hs => hsolid s (List.mem_append_left _ hs)
    have hrest := Node.flatMap_normal_of_not_isBlank r hapart.2
      fun s hs => hsolid s (List.mem_append_right _ hs)
    rw [List.flatMap_cons, hrest, Node.normal, helement]
    rfl
end

/-- A tree whose texts stand apart is in normal form if none of them is blank. -/
theorem Element.normal_eq_self_iff {e : Element} (h : e.textsApart = true) :
    e.normal = e ↔ ∀ s ∈ e.texts, Text.isBlankText s = false := by
  constructor
  · intro hnormal
    rw [← hnormal]
    exact e.isBlank_of_mem_normal
  · exact e.normal_of_not_isBlank h

/-! ### Heights -/

theorem Node.heights_ofRun (s : String) : Element.heights (Node.ofRun s) = 0 := by
  unfold Node.ofRun
  split <;> rfl

mutual
@[simp] theorem Element.height_normal : ∀ (e : Element), e.normal.height = e.height
  | ⟨_, _, cs⟩ => by
    rw [Element.normal, Element.height, Element.height, Node.heights_normalFrom cs ""]

theorem Node.heights_normalFrom :
    ∀ (nodes : List Node) (pending : String),
      Element.heights (Node.normalFrom pending nodes) = Element.heights nodes
  | [], pending => Node.heights_ofRun pending
  | .text t :: r, pending => Node.heights_normalFrom r (pending ++ t)
  | .element e :: r, pending => by
    rw [Node.normalFrom, Element.heights_append, Node.heights_ofRun, Nat.zero_max,
      Element.heights, Element.height_normal e, Node.heights_normalFrom r "", Element.heights]
end

end Xml

end GuestXml
