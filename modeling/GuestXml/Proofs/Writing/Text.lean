import GuestXml.Proofs.Writing.Levels
import GuestXml.Proofs.Xml.Name
import GuestXml.Proofs.Xml.Normal

/-!
# Written trees as text

What is emitted for a value has proper names and at most one text in each element
(`Fragment.Proper`), so it can be read from a text again, except that texts that are blank
are lost. What is left without them is the emission of some value too (`Clears`): only a
string can have a blank text, and the empty string in its place has none. This goes through
the description of a content type from the scalars up to whole values
(`Content.clears_emit`).
-/

namespace GuestXml.Schema

open Xml (Element Node isName)

/-! ### Fragments as text -/

namespace Fragment

/-- The fragment with its children in normal form, one by one. -/
def normal (m : Fragment) : Fragment :=
  { m with children := m.children.flatMap Node.normal }

/-- Names in a fragment are names, every element below it has one text at most, and it has
no more texts of its own than that many. -/
structure Proper (m : Fragment) (texts : Nat) : Prop where
  texts_le : (m.children.filterMap Node.text?).length ≤ texts
  isName_attribute : ∀ a ∈ m.attributes, isName a.1 = true
  elements : ∀ e ∈ m.elements, e.wellNamed = true ∧ e.textsApart = true

theorem normal_append (m m' : Fragment) : (m ++ m').normal = m.normal ++ m'.normal := by
  show Fragment.mk _ ((m.children ++ m'.children).flatMap Node.normal) = _
  rw [List.flatMap_append]
  rfl

theorem Proper.empty : Fragment.Proper {} 0 where
  texts_le := Nat.le_refl 0
  isName_attribute := by simp
  elements := by simp

variable {m m' : Fragment} {texts texts' : Nat}

theorem Proper.mono (h : m.Proper texts) (hle : texts ≤ texts') : m.Proper texts' :=
  { h with texts_le := Nat.le_trans h.texts_le hle }

theorem Proper.append (h : m.Proper texts) (h' : m'.Proper texts') :
    (m ++ m').Proper (texts + texts') where
  texts_le := by
    rw [children_append, List.filterMap_append, List.length_append]
    exact Nat.add_le_add h.texts_le h'.texts_le
  isName_attribute := by
    intro a ha
    exact (List.mem_append.mp ha).elim (h.isName_attribute a) (h'.isName_attribute a)
  elements := by
    intro e he
    rw [elements_append] at he
    exact (List.mem_append.mp he).elim (h.elements e) (h'.elements e)

/-! ### The element that has nothing but a fragment -/

theorem children_toElement (m : Fragment) (name : String) :
    (m.toElement name).children = m.children := by
  simp [toElement, addTo]

theorem texts_toElement (m : Fragment) (name : String) :
    (m.toElement name).texts = Node.texts m.children := by
  rw [← m.children_toElement name]
  rfl

theorem Proper.normal_toElement (h : m.Proper 1) (name : String) :
    (m.toElement name).normal = m.normal.toElement name := by
  simp [toElement, addTo, Element.normal, Node.normalFrom_of_length_le h.texts_le, normal]

theorem Proper.wellNamed_toElement (h : m.Proper texts) (hnodup : (m.attributes.map (·.1)).Nodup)
    {name : String} (hname : isName name = true) : (m.toElement name).wellNamed = true := by
  have hattributes := (m.heldBy_toElement hnodup name).attributes
  rw [Element.wellNamed_iff]
  refine ⟨⟨hname, ?_, ?_⟩, ?_⟩
  · rw [hattributes]
    exact h.isName_attribute
  · rw [hattributes]
    exact hnodup
  · rw [Element.allWellNamed_iff, m.children_toElement]
    exact fun e he => (h.elements e he).1

theorem Proper.textsApart_toElement (h : m.Proper 1) (name : String) :
    (m.toElement name).textsApart = true := by
  rw [Element.textsApart_iff, m.children_toElement, Node.allTextsApart_iff]
  exact ⟨h.texts_le, fun e he => (h.elements e he).2⟩

end Fragment

/-! ### Emissions without blank texts -/

section Clears

variable {α : Type} {emit : α → Option Fragment} {texts : Nat}

/-- Whatever is emitted is proper, and its normal form is emitted for some value too. -/
def Clears (emit : α → Option Fragment) (texts : Nat) : Prop :=
  ∀ v m, emit v = some m → m.Proper texts ∧ ∃ w, emit w = some m.normal

/-- The same of a list, where the other value is a list of the same length. -/
def ClearsAll (emit : List α → Option Fragment) : Prop :=
  ∀ vs m, emit vs = some m →
    m.Proper 0 ∧ ∃ ws, ws.length = vs.length ∧ emit ws = some m.normal

theorem Clears.mono {texts' : Nat} (h : Clears emit texts) (hle : texts ≤ texts') :
    Clears emit texts' := by
  intro v m hm
  obtain ⟨hproper, hcleared⟩ := h v m hm
  exact ⟨hproper.mono hle, hcleared⟩

/-- What has no children is in normal form. -/
theorem Clears.of_attributes (h : ∀ v m, emit v = some m →
    m.children = [] ∧ ∀ a ∈ m.attributes, isName a.1 = true) : Clears emit 0 := by
  intro v m hm
  obtain ⟨hchildren, hattributes⟩ := h v m hm
  have helements : m.elements = [] := by rw [Fragment.elements, hchildren]; rfl
  refine ⟨⟨?_, hattributes, by simp [helements]⟩, v, ?_⟩
  · rw [hchildren]
    exact Nat.le_refl 0
  · rw [hm]
    obtain ⟨attributes, children⟩ := m
    obtain rfl : children = [] := hchildren
    rfl

theorem Clears.text {s : Scalar} (hs : s.occurs = true) : Clears (emitText s) 1 := by
  intro v m hm
  obtain ⟨hvalid, hm'⟩ := emitText_eq_some_iff.mp hm
  by_cases hempty : (s.toText v).isEmpty = true
  · rw [if_pos hempty] at hm'
    subst hm'
    exact ⟨Fragment.Proper.empty.mono (Nat.zero_le 1), v, hm⟩
  · rw [if_neg hempty] at hm'
    subst hm'
    refine ⟨⟨Nat.le_refl 1, by simp, by simp [Fragment.elements]⟩, ?_⟩
    by_cases hblank : Text.isBlankText (s.toText v) = true
    · -- The text goes, and a value with the empty text takes the place of this one.
      obtain ⟨w, hw, htext⟩ := Scalar.exists_toText_eq_empty hs hvalid hblank
      refine ⟨w, emitText_eq_some_iff.mpr ⟨hw, ?_⟩⟩
      rw [htext]
      simp [Fragment.normal, Node.normal, Node.ofRun_of_isBlank hblank]
    · refine ⟨v, hm.trans ?_⟩
      simp [Fragment.normal, Node.normal,
        Node.ofRun_of_not_isBlank (Bool.eq_false_iff.mpr hblank)]

theorem Clears.attr {name : String} {s : Scalar} (hname : isName name = true) :
    Clears (emitAttr name s) 0 := by
  refine .of_attributes fun v m hm => ?_
  obtain ⟨-, rfl⟩ := emitAttr_eq_some_iff.mp hm
  exact ⟨rfl, by simpa using hname⟩

theorem Clears.child {name : String} (h : Clears emit 1)
    (hnodup : ∀ v m, emit v = some m → (m.attributes.map (·.1)).Nodup)
    (hname : isName name = true) : Clears (fun v => emitChild name (emit v)) 0 := by
  intro v m hm
  obtain ⟨content, hcontent, rfl⟩ := emitChild_eq_some_iff.mp hm
  obtain ⟨hproper, w, hw⟩ := h v content hcontent
  refine ⟨⟨Nat.le_refl 0, by simp, ?_⟩, w, emitChild_eq_some_iff.mpr ⟨_, hw, ?_⟩⟩
  · simpa [Fragment.elements] using And.intro
      (hproper.wellNamed_toElement (hnodup v content hcontent) hname)
      (hproper.textsApart_toElement name)
  · rw [← hproper.normal_toElement name]
    rfl

theorem Clears.valueElement {name : String} {s : Scalar} (hs : s.occurs = true)
    (hname : isName name = true) : Clears (fun v => emitChild name (emitText s v)) 0 := by
  refine (Clears.text hs).child (fun v m hm => ?_) hname
  obtain ⟨-, rfl⟩ := emitText_eq_some_iff.mp hm
  split <;> exact List.nodup_nil

theorem Clears.option (h : Clears emit texts) :
    Clears (fun v : Option α => emitAll emit v.toList) texts := by
  intro v? m hm
  cases v? with
  | none =>
    obtain rfl : {} = m := Option.some.inj hm
    exact ⟨Fragment.Proper.empty.mono (Nat.zero_le texts), none, rfl⟩
  | some v =>
    obtain ⟨hproper, w, hw⟩ := h v m ((emitAll_singleton _ v).symm.trans hm)
    exact ⟨hproper, some w, (emitAll_singleton _ w).trans hw⟩

theorem Clears.all (h : Clears emit 0) : ClearsAll (emitAll emit) := by
  intro vs m hm
  induction vs generalizing m with
  | nil =>
    obtain rfl : {} = m := Option.some.inj hm
    exact ⟨.empty, [], rfl, rfl⟩
  | cons v vs ih =>
    obtain ⟨m₁, m₂, hfirst, hrest, rfl⟩ := emitAll_cons_eq_some_iff.mp hm
    obtain ⟨hproper, w, hw⟩ := h v m₁ hfirst
    obtain ⟨hproper', ws, hlength, hws⟩ := ih m₂ hrest
    refine ⟨hproper.append hproper', w :: ws, by simp [hlength], ?_⟩
    exact emitAll_cons_eq_some_iff.mpr ⟨_, _, hw, hws, Fragment.normal_append m₁ m₂⟩

theorem ClearsAll.enough {emit : List α → Option Fragment} (h : ClearsAll emit) (min : Nat) :
    Clears (fun vs => emitIf (min ≤ vs.length) (emit vs)) 0 := by
  intro vs m hm
  obtain ⟨henough, hm⟩ := emitIf_eq_some_iff.mp hm
  obtain ⟨hproper, ws, hlength, hws⟩ := h vs m hm
  rw [← hlength] at henough
  exact ⟨hproper, ws, emitIf_eq_some_iff.mpr ⟨henough, hws⟩⟩

end Clears

/-! ### Names in the tables -/

/-- Whether the attribute and the child elements of a member have proper names. -/
def Field.isNamed (f : Field) : Bool :=
  f.attributeName?.all isName && f.childName?.all isName

theorem Group.isNamed_members (g : Group) : ∀ f ∈ g.record.members, f.field.isNamed = true := by
  cases g <;> decide +kernel

theorem Series.isNamed_members (s : Series) : ∀ f ∈ s.record.members, f.field.isNamed = true := by
  cases s <;> decide +kernel

theorem Choice.isName_tags (c : Choice) :
    ∀ a ∈ c.variants.alternatives, a.tag?.all isName = true := by
  cases c <;> decide +kernel

/-! ### Members and alternatives -/

section Members

variable {child : (t : Content) → t.Carrier → Option Fragment}
  (h : ∀ t, Clears (child t) 1)
  (hnodup : ∀ t v m, child t v = some m → (m.attributes.map (·.1)).Nodup)

include h hnodup

theorem clears_emitField {f : Field} (hf : f.isFaithful = true) (hnamed : f.isNamed = true) :
    Clears (emitField child f) f.isText.toNat := by
  obtain ⟨hattribute, hchild⟩ := Bool.and_eq_true_iff.mp hnamed
  cases f with
  | attr name s => exact .attr hattribute
  | optionalAttr name s => exact (Clears.attr hattribute).option
  | constant name value =>
    refine .of_attributes fun v m hm => ?_
    obtain rfl := Option.some.inj hm
    exact ⟨rfl, fun a ha => List.mem_singleton.mp ha ▸ hattribute⟩
  | text s => exact .text hf
  | optionalText s => cases hf
  | valueElement name s => exact .valueElement hf hchild
  | optionalValueElement name s => exact (Clears.valueElement hf hchild).option
  | valueElements name min s => exact (Clears.valueElement hf hchild).all.enough min
  | noContent =>
    refine .of_attributes fun v m hm => ?_
    obtain rfl := Option.some.inj hm
    exact ⟨rfl, by simp⟩
  | flag name =>
    have hempty : Clears (fun _ : Unit => some {}) 1 := by
      intro v m hm
      obtain rfl := Option.some.inj hm
      exact ⟨Fragment.Proper.empty.mono (Nat.zero_le 1), v, rfl⟩
    have hyes := hempty.child (fun v m hm => by
      obtain rfl := Option.some.inj hm
      exact List.nodup_nil) hchild
    intro v m hm
    cases v with
    | true =>
      obtain ⟨hproper, _, hw⟩ := hyes () m hm
      exact ⟨hproper, true, hw⟩
    | false =>
      obtain rfl : {} = m := Option.some.inj hm
      exact ⟨.empty, false, rfl⟩
  | element name t => exact (h t).child (hnodup t) hchild
  | optionalElement name t => exact ((h t).child (hnodup t) hchild).option
  | elements name min t => exact ((h t).child (hnodup t) hchild).all.enough min

theorem clears_emitTuple {ms : List Member} (hfaithful : ∀ f ∈ ms, f.field.isFaithful = true)
    (hnamed : ∀ f ∈ ms, f.field.isNamed = true) :
    Clears (emitTuple child ms) (ms.countP (·.field.isText)) := by
  intro vs m hm
  induction ms generalizing m with
  | nil =>
    obtain rfl : {} = m := Option.some.inj hm
    exact ⟨.empty, vs, rfl⟩
  | cons f ms ih =>
    obtain ⟨v, vs⟩ := vs
    obtain ⟨m₁, m₂, hfirst, hrest, rfl⟩ := emitTuple_cons_eq_some_iff.mp hm
    obtain ⟨hproper, w, hw⟩ := clears_emitField h hnodup (hfaithful f List.mem_cons_self)
      (hnamed f List.mem_cons_self) v m₁ hfirst
    obtain ⟨hproper', ws, hws⟩ := ih (fun f' hf' => hfaithful f' (List.mem_cons_of_mem f hf'))
      (fun f' hf' => hnamed f' (List.mem_cons_of_mem f hf')) vs m₂ hrest
    refine ⟨(hproper.append hproper').mono ?_, (w, ws), ?_⟩
    · rw [List.countP_cons]
      cases f.field.isText <;> simp [Nat.add_comm]
    · exact emitTuple_cons_eq_some_iff.mpr ⟨_, _, hw, hws, Fragment.normal_append m₁ m₂⟩

theorem clears_emitGroup (g : Group) : Clears (emitGroup child g) 1 := by
  intro v m hm
  have htuple := (clears_emitTuple h hnodup g.separate.faithful g.isNamed_members).mono
    g.separate.texts
  obtain ⟨hproper, ws, hws⟩ := htuple _ m hm
  refine ⟨hproper, g.record.ofTuple ws, ?_⟩
  rw [emitGroup, g.record.toTuple_ofTuple]
  exact hws

/-- An alternative that is a child element has no text of its own. -/
theorem clears_emitAny {as : List Alternative} (hnames : ∀ a ∈ as, a.tag?.all isName = true)
    {texts : Nat} (htexts : ∀ a ∈ as, a.tag? = none → 1 ≤ texts) :
    Clears (emitAny child as) texts := by
  intro v m hm
  induction as with
  | nil => exact nomatch v
  | cons a as ih =>
    cases v with
    | inr v =>
      obtain ⟨hproper, w, hw⟩ := ih (fun b hb => hnames b (List.mem_cons_of_mem a hb))
        (fun b hb => htexts b (List.mem_cons_of_mem a hb)) v hm
      exact ⟨hproper, .inr w, hw⟩
    | inl v =>
      have hclears : Clears (emitAlternative child a) texts := by
        cases a with
        | group name g =>
          exact (clears_emitGroup h hnodup g).mono (htexts _ List.mem_cons_self rfl)
        | element name tag t =>
          exact ((h t).child (hnodup t) (hnames _ List.mem_cons_self)).mono (Nat.zero_le texts)
      obtain ⟨hproper, w, hw⟩ := hclears v m hm
      exact ⟨hproper, .inl w, hw⟩

theorem clears_emitChoice (c : Choice) {texts : Nat}
    (htexts : ∀ a ∈ c.variants.alternatives, a.tag? = none → 1 ≤ texts) :
    Clears (emitChoice child c) texts := by
  intro v m hm
  obtain ⟨hproper, w, hw⟩ := clears_emitAny h hnodup c.isName_tags htexts _ m hm
  refine ⟨hproper, c.variants.ofAny w, ?_⟩
  rw [emitChoice, c.variants.toAny_ofAny]
  exact hw

theorem clears_emitContent (t : Content) : Clears (emitContent child t) 1 := by
  cases t with
  | group g => exact clears_emitGroup h hnodup g
  | choice c => exact clears_emitChoice h hnodup c fun _ _ _ => Nat.le_refl 1
  | series s =>
    intro v m hm
    obtain ⟨m₁, m₂, hmembers, hentries, rfl⟩ := append_eq_some_iff.mp hm
    obtain ⟨tags, htags, -⟩ := s.tags?_choice
    have hentry : Clears (emitChoice child s.record.choice) 0 := by
      refine clears_emitChoice h hnodup s.record.choice fun a ha hnone => ?_
      have htag : a.tag? ∈ tags.map some := by
        rw [← mapM_tag?_eq_some_iff.mp htags]
        exact List.mem_map_of_mem ha
      rw [hnone] at htag
      simp at htag
    obtain ⟨hproper, ws, hws⟩ := (clears_emitTuple h hnodup s.separate.faithful
      s.isNamed_members).mono s.separate.texts _ m₁ hmembers
    obtain ⟨hproper', entries, hlist⟩ := (hentry.all.enough s.record.min) _ m₂ hentries
    refine ⟨hproper.append hproper', s.record.ofParts (ws, entries), ?_⟩
    have hparts := s.record.toParts_ofParts (ws, entries)
    refine append_eq_some_iff.mpr ⟨m₁.normal, m₂.normal, ?_, ?_, Fragment.normal_append m₁ m₂⟩
    · rw [hparts]
      exact hws
    · rw [hparts]
      exact hlist

end Members

/-! ### Values -/

/-- By induction on the levels of the emission. -/
theorem clears_emitLevels (levels : Nat) (t : Content) : Clears (emitLevels levels t) 1 := by
  induction levels generalizing t with
  | zero => exact fun v m hm => nomatch hm
  | succ n ih => exact clears_emitContent ih (fun t v m => emitLevels_attributes) t

/-- What is emitted with some levels is emitted with those of the value. -/
theorem Content.emit_of_emitLevels {levels : Nat} {t : Content} {v : t.Carrier} {m : Fragment}
    (hm : emitLevels levels t v = some m) : t.emit v = some m := by
  induction levels generalizing t m with
  | zero => exact nomatch hm
  | succ n ih =>
    refine Content.emit_of_children (emitContent_carries ?_ hm)
    exact (t.forChildren_levels_lt v).imp fun t' w _ m' hm' => ih hm'

theorem Content.clears_emit (t : Content) : Clears t.emit 1 := by
  intro v m hm
  obtain ⟨hproper, w, hw⟩ := clears_emitLevels _ t v m hm
  exact ⟨hproper, w, Content.emit_of_emitLevels hw⟩

/-! ### The texts in what is emitted -/

/-- The texts in what is emitted, if anything is. -/
def textsOf (m? : Option Fragment) : Option (List String) :=
  m?.map fun m => Node.texts m.children

/-- The texts that are there for a scalar: the empty one is not written. -/
def writtenText (s : String) : List String :=
  if s.isEmpty then [] else [s]

/-- What each of some members has for texts. -/
def TupleTexts (child : (t : Content) → t.Carrier → Option Fragment) :
    (ms : List Member) → Tuple ms → List (List String) → Prop
  | [], _, [] => True
  | f :: ms, (v, vs), ss :: sss =>
    textsOf (emitField child f.field v) = some ss ∧ TupleTexts child ms vs sss
  | _, _, _ => False

theorem forall_mem_writtenText {s : String} :
    (∀ t ∈ writtenText s, Text.isBlankText t = false) ↔ s = "" ∨ Text.isBlankText s = false := by
  unfold writtenText
  by_cases hempty : s = ""
  · subst hempty
    simp
  · have hwritten : s.isEmpty = false :=
      Bool.eq_false_iff.mpr fun h => hempty (String.isEmpty_iff.mp h)
    simp [hwritten, hempty]

/-- Strings aside, no written text is blank. -/
theorem isBlank_of_mem_writtenText {s : Scalar} (hs : s.occurs = true) (hstring : s ≠ .string)
    {v : s.Carrier} (hv : s.isValid v = true) :
    ∀ t ∈ writtenText (s.toText v), Text.isBlankText t = false := by
  rw [forall_mem_writtenText, or_iff_not_imp_right, Bool.not_eq_false]
  exact Scalar.toText_eq_empty_of_isBlankText hs hstring hv

section Texts

variable {m? : Option Fragment} {ss : List String}

theorem textsOf_append {m'? : Option Fragment} {ss' : List String} (h : textsOf m? = some ss)
    (h' : textsOf m'? = some ss') :
    textsOf (do return (← m?) ++ (← m'?)) = some (ss ++ ss') := by
  obtain ⟨m, rfl, rfl⟩ := Option.map_eq_some_iff.mp h
  obtain ⟨m', rfl, rfl⟩ := Option.map_eq_some_iff.mp h'
  rw [← Node.texts_append]
  rfl

theorem textsOf_emitAttr {name : String} {s : Scalar} {v : s.Carrier} (hv : s.isValid v = true) :
    textsOf (emitAttr name s v) = some [] := by
  rw [emitAttr_eq_some_iff.mpr ⟨hv, rfl⟩]
  rfl

theorem textsOf_emitText {s : Scalar} {v : s.Carrier} (hv : s.isValid v = true) :
    textsOf (emitText s v) = some (writtenText (s.toText v)) := by
  rw [emitText_eq_some_iff.mpr ⟨hv, rfl⟩, writtenText]
  split <;> rfl

theorem textsOf_emitChild (name : String) (h : textsOf m? = some ss) :
    textsOf (emitChild name m?) = some ss := by
  obtain ⟨m, rfl, rfl⟩ := Option.map_eq_some_iff.mp h
  rw [← m.texts_toElement name]
  show some (Element.texts _ ++ []) = _
  rw [List.append_nil]

theorem textsOf_emitOption {α : Type} {emit : α → Option Fragment} {v : α}
    (h : textsOf (emit v) = some ss) : textsOf (emitAll emit [v]) = some ss := by
  rw [emitAll_singleton]
  exact h

/-- Entries without texts have none together. -/
theorem textsOf_emitAll {α : Type} {emit : α → Option Fragment} {vs : List α}
    (h : ∀ v ∈ vs, textsOf (emit v) = some []) : textsOf (emitAll emit vs) = some [] := by
  induction vs with
  | nil => rfl
  | cons v vs ih =>
    exact textsOf_append (h v List.mem_cons_self) (ih fun w hw => h w (List.mem_cons_of_mem v hw))

theorem textsOf_emitTuple {child : (t : Content) → t.Carrier → Option Fragment}
    {ms : List Member} {vs : Tuple ms} {sss : List (List String)}
    (h : TupleTexts child ms vs sss) : textsOf (emitTuple child ms vs) = some sss.flatten := by
  induction ms generalizing sss with
  | nil =>
    cases sss with
    | nil => rfl
    | cons ss sss => exact h.elim
  | cons f ms ih =>
    cases sss with
    | nil => exact h.elim
    | cons ss sss => exact textsOf_append h.1 (ih h.2)

/-- The texts of a group, from what each member has. -/
theorem textsOf_emit {g : Group} {v : g.Carrier} (sss : List (List String))
    (h : TupleTexts Content.emit g.record.members (g.record.toTuple v) sss) :
    textsOf ((Content.group g).emit v) = some sss.flatten := by
  obtain ⟨m, hm, hss⟩ := Option.map_eq_some_iff.mp (textsOf_emitTuple h)
  rw [Content.emit_of_children (t := .group g) hm, ← hss]
  rfl

end Texts

end GuestXml.Schema
