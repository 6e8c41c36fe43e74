import GuestXml.Xml.Event
import GuestXml.Xml.Tree

/-!
# Names

A tree can only be written so that it is read again if its elements and attributes carry
names in the sense of XML: `isName`. No name contains a character that ends a name in a
tag (`ne_of_isNameChar`). A tree is `wellNamed` if that holds throughout and no element has
two attributes of one name.
-/

namespace GuestXml.Xml

/-! ### Characters of names -/

/-- The ranges of characters that a name may begin with. -/
def nameStartRanges : List (Nat × Nat) :=
  [(0x3A, 0x3A), (0x41, 0x5A), (0x5F, 0x5F), (0x61, 0x7A), (0xC0, 0xD6), (0xD8, 0xF6),
   (0xF8, 0x2FF), (0x370, 0x37D), (0x37F, 0x1FFF), (0x200C, 0x200D), (0x2070, 0x218F),
   (0x2C00, 0x2FEF), (0x3001, 0xD7FF), (0xF900, 0xFDCF), (0xFDF0, 0xFFFD), (0x10000, 0xEFFFF)]

/-- The ranges of characters that may only stand behind the first of a name. -/
def nameRestRanges : List (Nat × Nat) :=
  [(0x2D, 0x2E), (0x30, 0x39), (0xB7, 0xB7), (0x300, 0x36F), (0x203F, 0x2040)]

/-- Whether a character lies in one of some ranges. -/
def inRanges (ranges : List (Nat × Nat)) (c : Char) : Bool :=
  ranges.any fun (first, last) => first ≤ c.toNat && c.toNat ≤ last

/-- Whether a name may begin with a character. -/
def isNameStart (c : Char) : Bool :=
  inRanges nameStartRanges c

/-- Whether a character may stand in a name. -/
def isNameChar (c : Char) : Bool :=
  isNameStart c || inRanges nameRestRanges c

/-- A name is not empty, and its first character is one that names begin with. -/
def isName (s : String) : Bool :=
  match s.toList with
  | [] => false
  | c :: r => isNameStart c && r.all isNameChar

theorem isNameChar_of_isNameStart {c : Char} (h : isNameStart c = true) : isNameChar c = true := by
  rw [isNameChar, h, Bool.true_or]

/-- A character of a name is none of those that no name has. -/
theorem ne_of_isNameChar {c d : Char} (hc : isNameChar c = true) (hd : isNameChar d = false) :
    c ≠ d := by
  rintro rfl
  rw [hc] at hd
  cases hd

theorem isSpace_of_isNameChar {c : Char} (h : isNameChar c = true) : isSpace c = false := by
  have hne : ∀ d, isNameChar d = false → (c == d) = false := fun d hd =>
    beq_eq_false_iff_ne.mpr (ne_of_isNameChar h hd)
  rw [isSpace, hne ' ' (by decide), hne '\t' (by decide), hne '\r' (by decide),
    hne '\n' (by decide)]
  rfl

theorem isName_iff {s : String} :
    isName s = true ↔
      ∃ c r, s.toList = c :: r ∧ isNameStart c = true ∧ ∀ d ∈ s.toList, isNameChar d = true := by
  unfold isName
  constructor
  · intro h
    split at h
    · cases h
    · rename_i c r hs
      rw [Bool.and_eq_true, List.all_eq_true] at h
      refine ⟨c, r, hs, h.1, ?_⟩
      rw [hs]
      intro d hd
      rcases List.mem_cons.mp hd with rfl | hd
      · exact isNameChar_of_isNameStart h.1
      · exact h.2 d hd
  · rintro ⟨c, r, hs, hc, hr⟩
    rw [hs] at hr ⊢
    rw [Bool.and_eq_true, List.all_eq_true]
    exact ⟨hc, fun d hd => hr d (List.mem_cons_of_mem c hd)⟩

theorem isNameChar_of_mem {s : String} (h : isName s = true) {d : Char} (hd : d ∈ s.toList) :
    isNameChar d = true := by
  obtain ⟨_, _, _, _, hall⟩ := isName_iff.mp h
  exact hall d hd

/-! ### Trees -/

namespace Element

/-- The names in the tag of an element are names, and no attribute comes twice. -/
structure TagNamed (name : String) (attributes : List (String × String)) : Prop where
  isName_name : isName name = true
  isName_attribute : ∀ a ∈ attributes, isName a.1 = true
  nodup : (attributes.map (·.1)).Nodup

instance (name : String) (attributes : List (String × String)) :
    Decidable (TagNamed name attributes) :=
  decidable_of_iff (isName name = true ∧ (∀ a ∈ attributes, isName a.1 = true) ∧
      (attributes.map (·.1)).Nodup)
    ⟨fun ⟨h₁, h₂, h₃⟩ => ⟨h₁, h₂, h₃⟩, fun h => ⟨h.isName_name, h.isName_attribute, h.nodup⟩⟩

mutual
/-- Every tag in a tree has proper names. -/
def wellNamed : Element → Bool
  | ⟨name, as, cs⟩ => decide (TagNamed name as) && allWellNamed cs

/-- Every tag in some nodes has proper names. -/
def allWellNamed : List Node → Bool
  | [] => true
  | .element e :: r => e.wellNamed && allWellNamed r
  | .text _ :: r => allWellNamed r
end

theorem wellNamed_iff {e : Element} :
    e.wellNamed = true ↔ TagNamed e.name e.attributes ∧ allWellNamed e.children = true := by
  obtain ⟨name, as, cs⟩ := e
  rw [wellNamed, Bool.and_eq_true, decide_eq_true_eq]

theorem allWellNamed_iff {nodes : List Node} :
    allWellNamed nodes = true ↔ ∀ e ∈ nodes.filterMap Node.element?, e.wellNamed = true := by
  induction nodes with
  | nil => simp [allWellNamed]
  | cons node nodes ih =>
    cases node with
    | element e =>
      rw [allWellNamed, Bool.and_eq_true, ih]
      simp [Node.element?]
    | text s =>
      rw [allWellNamed, ih]
      simp [Node.element?]

end Element

end GuestXml.Xml
