import GuestXml.Proofs.Xml.Tree
import Mathlib.Data.List.Find
import Mathlib.Data.List.Forall2
import Mathlib.Data.List.Nodup

/-!
# The order of attributes

Two trees are reorderings of each other if they differ in the order of attributes only, in any
of their elements, and no element has two attributes of one name. The name of an element, its
text and the value of each of its attributes are the same then, and its child elements are
again reorderings of each other, one by one.
-/

namespace GuestXml.Xml

mutual
/-- The elements differ in the order of their attributes only, and so do those inside them. No
name comes twice. -/
inductive Element.Reordered : Element → Element → Prop where
  | intro {name : String} {as bs : List (String × String)} {cs ds : List Node}
    (attributes : as.Perm bs) (distinct : (as.map Prod.fst).Nodup)
    (children : Node.AllReordered cs ds) :
    Element.Reordered { name, attributes := as, children := cs }
      { name, attributes := bs, children := ds }

/-- The nodes are the same texts and reorderings of the same elements, one by one. -/
inductive Node.AllReordered : List Node → List Node → Prop where
  | nil : Node.AllReordered [] []
  | text {s : String} {cs ds : List Node} (h : Node.AllReordered cs ds) :
    Node.AllReordered (.text s :: cs) (.text s :: ds)
  | element {c d : Element} {cs ds : List Node} (hc : Element.Reordered c d)
    (h : Node.AllReordered cs ds) : Node.AllReordered (.element c :: cs) (.element d :: ds)
end

theorem Node.AllReordered.texts {cs ds : List Node} (h : Node.AllReordered cs ds) :
    cs.filterMap Node.text? = ds.filterMap Node.text? := by
  induction cs generalizing ds with
  | nil =>
    cases h
    rfl
  | cons c cs ih =>
    cases h with
    | text h => rw [List.filterMap_cons, List.filterMap_cons, ih h]
    | element hc h => simpa only [List.filterMap_cons, text?_element] using ih h

theorem Node.AllReordered.elements {cs ds : List Node} (h : Node.AllReordered cs ds) :
    (cs.filterMap Node.element?).Forall₂ Element.Reordered (ds.filterMap Node.element?) := by
  induction cs generalizing ds with
  | nil =>
    cases h
    exact .nil
  | cons c cs ih =>
    cases h with
    | text h => simpa only [List.filterMap_cons, element?_text] using ih h
    | element hc h => exact .cons hc (ih h)

namespace Element.Reordered

variable {e e' : Element}

theorem name_eq (h : e.Reordered e') : e.name = e'.name := by
  cases h
  rfl

theorem text_eq (h : e.Reordered e') : e.text = e'.text := by
  cases h with
  | intro _ _ children => exact congrArg String.join children.texts

theorem childElements (h : e.Reordered e') :
    e.childElements.Forall₂ Reordered e'.childElements := by
  cases h with
  | intro _ _ children => exact children.elements

theorem attributes_eq_nil (h : e.Reordered e') : e.attributes = [] ↔ e'.attributes = [] := by
  cases h with
  | intro attributes _ _ =>
    constructor
    · rintro rfl
      exact attributes.nil_eq.symm
    · rintro rfl
      exact attributes.eq_nil

/-- An attribute is looked up by a name that comes once at most. -/
theorem attribute?_eq (h : e.Reordered e') (name : String) :
    e.attribute? name = e'.attribute? name := by
  cases h with
  | @intro _ as bs _ _ attributes distinct _ =>
    refine congrArg (Option.map Prod.snd) (List.find?_eq_find?_of_perm attributes ?_)
    rintro a ⟨ha, hname⟩ b ⟨hb, hname'⟩
    refine List.inj_on_of_nodup_map distinct ha hb ?_
    rw [eq_of_beq hname, eq_of_beq hname']

end Element.Reordered

end GuestXml.Xml
