import GuestXml.Proofs.Schema.Shape
import GuestXml.Proofs.Writing.Emission
import GuestXml.Proofs.Xml.Merging

/-!
# What is in a fragment

The attributes, child elements and text of a fragment come from the members it was emitted
for: each attribute is that of a member, at most one for each member and in their order
(`emitTuple_attributes`), each child element has the name of a member (`emitTuple_elements`),
and there is no text without a member for it (`emitTuple_text`). So no attribute is assigned
twice, and the written element has just what the fragment has (`Fragment.holds_toElement`).
-/

namespace GuestXml

namespace Xml.Element

/-- Assigning new names adds them in order. -/
theorem foldl_assign (new old : List (String × String))
    (h : ((old ++ new).map (·.1)).Nodup) :
    new.foldl (fun as a => assign a.1 a.2 as) old = old ++ new := by
  induction new generalizing old with
  | nil => simp
  | cons a new ih =>
    obtain ⟨name, value⟩ := a
    have hnew : name ∉ old.map (·.1) := by
      intro hmem
      rw [List.map_append, List.nodup_append] at h
      exact h.2.2 name hmem name (by simp) rfl
    rw [List.foldl_cons, assign_of_not_mem value hnew, ih _ (by simpa using h)]
    simp

end Xml.Element

namespace Schema

open Xml (Element Node)

/-! ### Elements that hold a fragment -/

/-- The element has the attributes, child elements and text of a fragment. -/
structure Fragment.HeldBy (m : Fragment) (e : Element) : Prop where
  attributes : e.attributes = m.attributes
  elements : e.childElements = m.elements
  text : e.text = m.text

namespace Fragment

variable {m : Fragment}

theorem heldBy_toElement (h : (m.attributes.map (·.1)).Nodup) (name : String) :
    m.HeldBy (m.toElement name) where
  attributes := by simpa [toElement, addTo] using Element.foldl_assign m.attributes [] h
  elements := by simp [toElement, addTo, Element.childElements, elements]
  text := by simp [toElement, addTo, Element.text, text]

/-- Appending what has nothing but a fragment adds the fragment. -/
theorem append_toElement_eq_addTo (h : (m.attributes.map (·.1)).Nodup) (e : Element)
    (name : String) : e.append (m.toElement name) = m.addTo e := by
  have hheld := heldBy_toElement h name
  rw [Element.append, hheld.attributes]
  rfl

theorem childElements_toElement (m : Fragment) (name : String) :
    (m.toElement name).childElements = m.elements := by
  simp [toElement, addTo, Element.childElements, elements]

theorem text_toElement (m : Fragment) (name : String) :
    (m.toElement name).text = m.text := by
  simp [toElement, addTo, Element.text, text]

@[simp] theorem name_toElement (m : Fragment) (name : String) :
    (m.toElement name).name = name := rfl

end Fragment

/-! ### Emissions that come to something -/

theorem append_eq_some_iff {a? b? : Option Fragment} {m : Fragment} :
    (do return (← a?) ++ (← b?)) = some m ↔
      ∃ m₁ m₂, a? = some m₁ ∧ b? = some m₂ ∧ m = m₁ ++ m₂ := by
  cases a? <;> cases b? <;> simp [@eq_comm _ m]

theorem emitAll_cons_eq_some_iff {α : Type} {emit : α → Option Fragment} {v : α} {vs : List α}
    {m : Fragment} :
    emitAll emit (v :: vs) = some m ↔
      ∃ m₁ m₂, emit v = some m₁ ∧ emitAll emit vs = some m₂ ∧ m = m₁ ++ m₂ :=
  append_eq_some_iff

theorem emitChild_eq_some_iff {name : String} {m? : Option Fragment} {m : Fragment} :
    emitChild name m? = some m ↔
      ∃ content, m? = some content ∧ m = { children := [.element (content.toElement name)] } := by
  cases m? <;> simp [emitChild, @eq_comm _ m]

theorem emitIf_eq_some_iff {enough : Bool} {m? : Option Fragment} {m : Fragment} :
    emitIf enough m? = some m ↔ enough = true ∧ m? = some m := by
  cases enough <;> simp [emitIf]

theorem emitAttr_eq_some_iff {name : String} {s : Scalar} {v : s.Carrier} {m : Fragment} :
    emitAttr name s v = some m ↔
      s.isValid v = true ∧ m = { attributes := [(name, s.toText v)] } := by
  unfold emitAttr Scalar.encode
  split <;> simp_all [Except.toOption, @eq_comm _ m]

theorem emitText_eq_some_iff {s : Scalar} {v : s.Carrier} {m : Fragment} :
    emitText s v = some m ↔ s.isValid v = true ∧
      m = if (s.toText v).isEmpty then {} else { children := [.text (s.toText v)] } := by
  unfold emitText Scalar.encode
  split <;> simp_all [Except.toOption, @eq_comm _ m]

theorem emitText_text {s : Scalar} {v : s.Carrier} {m : Fragment} (h : emitText s v = some m) :
    s.isValid v = true ∧ m.text = s.toText v ∧ m.elements = [] := by
  obtain ⟨hvalid, rfl⟩ := emitText_eq_some_iff.mp h
  refine ⟨hvalid, ?_⟩
  split
  · rename_i hempty
    rw [String.isEmpty_iff.mp hempty]
    exact ⟨rfl, rfl⟩
  · simp [Fragment.text, Fragment.elements]

section Members

variable {emit : (t : Content) → t.Carrier → Option Fragment} {m : Fragment}

theorem emitTuple_cons_eq_some_iff {f : Member} {ms : List Member} {v : f.field.Carrier}
    {vs : Tuple ms} :
    emitTuple emit (f :: ms) (v, vs) = some m ↔
      ∃ m₁ m₂, emitField emit f.field v = some m₁ ∧ emitTuple emit ms vs = some m₂ ∧
        m = m₁ ++ m₂ :=
  append_eq_some_iff

/-! ### Child elements -/

/-- A fragment without attributes and text, whose child elements have a name. -/
structure Fragment.Children (m : Fragment) (name : String) : Prop where
  attributes : m.attributes = []
  elements : ∀ c ∈ m.elements, c.name = name
  text : m.text = ""

theorem Fragment.Children.empty (name : String) : Fragment.Children {} name :=
  ⟨rfl, by simp [Fragment.elements], rfl⟩

theorem emitChild_children {name : String} {m? : Option Fragment}
    (h : emitChild name m? = some m) : m.Children name := by
  obtain ⟨content, -, rfl⟩ := emitChild_eq_some_iff.mp h
  exact ⟨rfl, by simp [Fragment.elements], rfl⟩

theorem emitAll_children {α : Type} {name : String} {emit : α → Option Fragment} {vs : List α}
    (h : emitAll (fun v => emitChild name (emit v)) vs = some m) : m.Children name := by
  induction vs generalizing m with
  | nil =>
    obtain rfl : {} = m := Option.some.inj h
    exact .empty name
  | cons v vs ih =>
    obtain ⟨m₁, m₂, hfirst, hrest, rfl⟩ := emitAll_cons_eq_some_iff.mp h
    have h₁ := emitChild_children hfirst
    have h₂ := ih hrest
    refine ⟨by simp [h₁.attributes, h₂.attributes], ?_, by simp [h₁.text, h₂.text]⟩
    intro c hc
    rw [Fragment.elements_append] at hc
    exact (List.mem_append.mp hc).elim (h₁.elements c) (h₂.elements c)

/-! ### Members -/

/-- A fragment that has no more than a member may write. -/
structure Fragment.Of (m : Fragment) (f : Field) : Prop where
  attributes : List.Sublist (m.attributes.map (·.1)) f.attributeName?.toList
  elements : ∀ c ∈ m.elements, c.name ∈ f.childName?.toList
  text : f.isText = false → m.text = ""

theorem Fragment.Children.of {name : String} (h : m.Children name) {f : Field}
    (hf : f.childName? = some name) : m.Of f where
  attributes := by simp [h.attributes]
  elements := by
    intro c hc
    simp [hf, h.elements c hc]
  text _ := h.text

theorem emitText_of {s : Scalar} {v : s.Carrier} (h : emitText s v = some m) {f : Field}
    (hf : f.isText = true) : m.Of f := by
  obtain ⟨-, rfl⟩ := emitText_eq_some_iff.mp h
  have helements : (if (s.toText v).isEmpty then {} else
      { children := [Node.text (s.toText v)] } : Fragment).elements = [] := by
    split <;> simp [Fragment.elements]
  refine ⟨?_, fun c hc => by simp only [helements, List.not_mem_nil] at hc, by simp [hf]⟩
  split <;> simp

theorem emitField_of (f : Field) (v : f.Carrier) (h : emitField emit f v = some m) : m.Of f := by
  cases f with
  | attr name s =>
    obtain ⟨-, rfl⟩ := emitAttr_eq_some_iff.mp h
    exact ⟨.refl _, by simp [Fragment.elements], fun _ => rfl⟩
  | optionalAttr name s =>
    cases v with
    | none =>
      obtain rfl : {} = m := Option.some.inj h
      exact ⟨by simp, by simp [Fragment.elements], fun _ => rfl⟩
    | some w =>
      obtain ⟨-, rfl⟩ := emitAttr_eq_some_iff.mp ((emitAll_singleton _ w).symm.trans h)
      exact ⟨.refl _, by simp [Fragment.elements], fun _ => rfl⟩
  | constant name value =>
    obtain rfl := Option.some.inj h
    exact ⟨.refl _, by simp [Fragment.elements], fun _ => rfl⟩
  | text s => exact emitText_of h rfl
  | optionalText s =>
    cases v with
    | none =>
      obtain rfl : {} = m := Option.some.inj h
      exact ⟨.refl _, by simp [Fragment.elements], fun _ => rfl⟩
    | some w =>
      exact emitText_of ((emitAll_singleton _ w).symm.trans h) rfl
  | valueElement name s => exact (emitChild_children h).of rfl
  | optionalValueElement name s => exact (emitAll_children h).of rfl
  | valueElements name min s => exact (emitAll_children (emitIf_eq_some_iff.mp h).2).of rfl
  | noContent =>
    obtain rfl := Option.some.inj h
    exact ⟨.refl _, by simp [Fragment.elements], fun _ => rfl⟩
  | flag name =>
    cases v with
    | true =>
      have hm : emitChild name (some {}) = some m := h
      exact (emitChild_children hm).of rfl
    | false =>
      obtain rfl : {} = m := Option.some.inj h
      exact (Fragment.Children.empty name).of rfl
  | element name t => exact (emitChild_children h).of rfl
  | optionalElement name t => exact (emitAll_children h).of rfl
  | elements name min t => exact (emitAll_children (emitIf_eq_some_iff.mp h).2).of rfl

theorem emitTuple_attributes {ms : List Member} {vs : Tuple ms}
    (h : emitTuple emit ms vs = some m) :
    List.Sublist (m.attributes.map (·.1)) (attributeNames ms) := by
  induction ms generalizing m with
  | nil =>
    obtain rfl : {} = m := Option.some.inj h
    exact .refl _
  | cons f ms ih =>
    obtain ⟨m₁, m₂, hfirst, hrest, rfl⟩ := emitTuple_cons_eq_some_iff.mp h
    rw [Fragment.attributes_append, List.map_append, attributeNames_cons]
    exact (emitField_of f.field _ hfirst).attributes.append (ih hrest)

theorem emitTuple_elements {ms : List Member} {vs : Tuple ms}
    (h : emitTuple emit ms vs = some m) : ∀ c ∈ m.elements, c.name ∈ childNames ms := by
  induction ms generalizing m with
  | nil =>
    obtain rfl : {} = m := Option.some.inj h
    simp [Fragment.elements]
  | cons f ms ih =>
    obtain ⟨m₁, m₂, hfirst, hrest, rfl⟩ := emitTuple_cons_eq_some_iff.mp h
    intro c hc
    rw [Fragment.elements_append] at hc
    rw [childNames_cons]
    rcases List.mem_append.mp hc with hc | hc
    · exact List.mem_append_left _ ((emitField_of f.field _ hfirst).elements c hc)
    · exact List.mem_append_right _ (ih hrest c hc)

theorem emitTuple_text {ms : List Member} {vs : Tuple ms} (h : emitTuple emit ms vs = some m)
    (hms : ∀ f ∈ ms, f.field.isText = false) : m.text = "" := by
  induction ms generalizing m with
  | nil =>
    obtain rfl : {} = m := Option.some.inj h
    rfl
  | cons f ms ih =>
    obtain ⟨m₁, m₂, hfirst, hrest, rfl⟩ := emitTuple_cons_eq_some_iff.mp h
    rw [Fragment.text_append, (emitField_of f.field _ hfirst).text (hms f (by simp)),
      ih hrest fun f' hf' => hms f' (by simp [hf'])]
    rfl

/-! ### Contents -/

theorem emitGroup_attributes {g : Group} {v : g.Carrier} (h : emitGroup emit g v = some m) :
    (m.attributes.map (·.1)).Nodup :=
  (emitTuple_attributes h).nodup g.separate.attributes

theorem emitAny_attributes {as : List Alternative} {v : AnyOf as}
    (h : emitAny emit as v = some m) : (m.attributes.map (·.1)).Nodup := by
  induction as with
  | nil => exact nomatch v
  | cons a as ih =>
    cases v with
    | inr w => exact ih h
    | inl w =>
      cases a with
      | group name g => exact emitGroup_attributes h
      | element name tag t => simp [(emitChild_children h).attributes]

theorem emitAny_alternative {as : List Alternative} {v : AnyOf as}
    (h : emitAny emit as v = some m) : ∃ a ∈ as, ∃ u, emitAlternative emit a u = some m := by
  induction as with
  | nil => exact nomatch v
  | cons a as ih =>
    cases v with
    | inl w => exact ⟨a, by simp, w, h⟩
    | inr w =>
      obtain ⟨b, hb, u, hu⟩ := ih h
      exact ⟨b, by simp [hb], u, hu⟩

/-- What has a tag is written as a child element with the tag. -/
theorem emitAny_element {as : List Alternative} {v : AnyOf as} {tags : List String}
    (htags : as.map (·.tag?) = tags.map some) (h : emitAny emit as v = some m) :
    ∃ e : Element, e.name ∈ tags ∧ m = { children := [.element e] } := by
  induction as generalizing tags with
  | nil => exact nomatch v
  | cons a as ih =>
    obtain _ | ⟨tag, tags⟩ := tags
    case nil => simp at htags
    obtain ⟨htag, htags⟩ := List.cons_eq_cons.mp htags
    cases v with
    | inr w =>
      obtain ⟨e, hname, hm⟩ := ih htags h
      exact ⟨e, by simp [hname], hm⟩
    | inl w =>
      cases a with
      | group name g => exact nomatch htag
      | element name tag' t =>
        obtain rfl := Option.some.inj htag
        obtain ⟨content, -, hm⟩ := emitChild_eq_some_iff.mp h
        exact ⟨content.toElement tag', by simp, hm⟩

/-- Entries with tags have no attributes and no text, and are child elements with a tag. -/
theorem emitAll_entries {c : Choice} {vs : List c.Carrier} {tags : List String}
    (htags : c.tags? = some tags) (h : emitAll (emitChoice emit c) vs = some m) :
    m.attributes = [] ∧ (∀ e ∈ m.elements, e.name ∈ tags) ∧ m.text = "" := by
  induction vs generalizing m with
  | nil =>
    obtain rfl : {} = m := Option.some.inj h
    exact ⟨rfl, by simp, rfl⟩
  | cons v vs ih =>
    obtain ⟨m₁, m₂, hfirst, hrest, rfl⟩ := emitAll_cons_eq_some_iff.mp h
    obtain ⟨e, hname, rfl⟩ := emitAny_element (mapM_tag?_eq_some_iff.mp htags) hfirst
    obtain ⟨hattributes, helements, htext⟩ := ih hrest
    refine ⟨by simp [hattributes], ?_, by rw [Fragment.text_append, htext]; rfl⟩
    intro e' he'
    rw [Fragment.elements_append] at he'
    rcases List.mem_append.mp he' with he' | he'
    · obtain rfl : e' = e := by simpa [Fragment.elements] using he'
      exact hname
    · exact helements e' he'

/-- The attributes of a written element have different names. -/
theorem emitContent_attributes {t : Content} {v : t.Carrier}
    (h : emitContent emit t v = some m) : (m.attributes.map (·.1)).Nodup := by
  cases t with
  | group g => exact emitGroup_attributes h
  | choice c => exact emitAny_attributes h
  | series s =>
    obtain ⟨m₁, m₂, hmembers, hentries, rfl⟩ := append_eq_some_iff.mp h
    obtain ⟨tags, htags, -⟩ := s.tags?_choice
    obtain ⟨hattributes, -⟩ := emitAll_entries htags (emitIf_eq_some_iff.mp hentries).2
    rw [Fragment.attributes_append, hattributes, List.append_nil]
    exact (emitTuple_attributes hmembers).nodup s.separate.attributes

end Members

theorem emitLevels_attributes {levels : Nat} {t : Content} {v : t.Carrier} {m : Fragment}
    (h : emitLevels levels t v = some m) : (m.attributes.map (·.1)).Nodup := by
  cases levels with
  | zero => exact nomatch h
  | succ n => exact emitContent_attributes h

end Schema

end GuestXml
