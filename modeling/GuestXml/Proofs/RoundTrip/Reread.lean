import GuestXml.Proofs.Reading.Takes
import GuestXml.Proofs.Writing.Names

/-!
# What is written is read back

An element that holds what was emitted of a value is scanned to that value, with every
element below it counted (`rereads_levels`). The member that wrote an attribute or the text
finds it there (`Field.Sees`), since no other member writes under its name; and it takes the
children that it wrote, as long as what follows is not taken for more of them
(`Field.Passes`). Alternatives that are tried before the one that was written are rejected
(`scanAlternative_rejects`).
-/

namespace GuestXml.Schema

open Xml (Element)

/-- What was emitted is scanned back, if the limit on nesting leaves room for it. -/
def Rereads {α : Type} (below : Nat) (emit : α → Option Fragment)
    (scan : Element → Except Error (α × Nat)) : Prop :=
  ∀ v m name, emit v = some m → (m.toElement name).height ≤ below →
    scan (m.toElement name) = .ok (v, (m.toElement name).descendants)

/-! ### Scalars and flags -/

section Leaves

variable (site : Site)

theorem rereads_value {s : Scalar} (hs : s.occurs = true) :
    Rereads site.below (emitText s) (scanValue site s) := by
  intro v m name hm _
  obtain ⟨hvalid, htext, helements⟩ := emitText_text hm
  have hdecode : s.decode (m.toElement name).text = .ok v := by
    rw [m.text_toElement, htext]
    exact Scalar.decode_toText hs hvalid
  have hchildren : (m.toElement name).childElements = [] := by
    rw [m.childElements_toElement, helements]
  refine Takes.scanElement (site.child (m.toElement name)) ?_
  show Takes _ _ _ (m.toElement name).childElements
  rw [hchildren, hdecode]
  exact .pure v

theorem rereads_flag : Rereads site.below (fun _ : Unit => some {}) (scanFlag site) := by
  intro v m name hm _
  obtain rfl : {} = m := Option.some.inj hm
  exact Takes.scanElement (site.child (Fragment.toElement {} name)) (.pure ())

end Leaves

/-! ### Child elements -/

section Children

variable {α β : Type} {site : Site} {emit : α → Option Fragment}
  {scan : Element → Except Error (α × Nat)} {name : String} {m : Fragment}

theorem Rereads.takes (h : Rereads site.below emit scan) {v : α}
    (hm : emitChild name (emit v) = some m) (hheight : ∀ c ∈ m.elements, c.height ≤ site.below) :
    ∃ e, m.elements = [e] ∧ e.name = name ∧
      Takes (fun _ => True) (scanChild site (scan e)) v [e] := by
  obtain ⟨content, hcontent, rfl⟩ := emitChild_eq_some_iff.mp hm
  have hle := hheight (content.toElement name) (by simp [Fragment.elements])
  exact ⟨content.toElement name, by simp [Fragment.elements], rfl,
    .scanChild (Nat.lt_of_lt_of_le (Element.height_pos _) hle) (h v content name hcontent hle)⟩

theorem Rereads.required (h : Rereads site.below emit scan) {v : α}
    (hm : emitChild name (emit v) = some m) (hheight : ∀ c ∈ m.elements, c.height ≤ site.below) :
    Takes (fun _ => True) (do scanChild site (scan (← scanRequired site name))) v m.elements := by
  obtain ⟨e, helements, hname, htakes⟩ := h.takes hm hheight
  rw [helements]
  exact .ask (fun s more hrest _ => scanRequired_of_named site hrest hname) htakes

theorem Rereads.optional (h : Rereads site.below emit scan) {v? : Option α} (f : α → β) (b : β)
    (hm : emitAll (fun v => emitChild name (emit v)) v?.toList = some m)
    (hheight : ∀ c ∈ m.elements, c.height ≤ site.below) :
    Takes (·.name ≠ name)
      (do match ← scanNext? name with
          | some e => f <$> scanChild site (scan e)
          | none => return b)
      ((v?.map f).getD b) m.elements := by
  cases v? with
  | none =>
    obtain rfl : {} = m := Option.some.inj hm
    refine .ask (fun s more hrest hmore => scanNext?_of_unnamed fun e he => ?_) (.pure b)
    exact hmore e (List.mem_of_mem_head? (by simpa [hrest] using he))
  | some v =>
    have hfirst := (emitAll_singleton _ v).symm.trans hm
    obtain ⟨e, helements, hname, htakes⟩ := h.takes hfirst hheight
    rw [helements]
    exact .ask (fun s more hrest _ => scanNext?_of_named hrest hname)
      ((htakes.map f).mono fun _ _ => trivial)

theorem Rereads.mapM (h : Rereads site.below emit scan) {vs : List α}
    (hm : emitAll (fun v => emitChild name (emit v)) vs = some m)
    (hheight : ∀ c ∈ m.elements, c.height ≤ site.below) :
    Takes (fun _ => True) (m.elements.mapM fun e => scanChild site (scan e)) vs m.elements := by
  induction vs generalizing m with
  | nil =>
    obtain rfl : {} = m := Option.some.inj hm
    exact .pure []
  | cons v vs ih =>
    obtain ⟨m₁, m₂, hfirst, hrest, rfl⟩ := emitAll_cons_eq_some_iff.mp hm
    rw [Fragment.elements_append] at hheight ⊢
    obtain ⟨e, helements, -, htakes⟩ := h.takes hfirst fun c hc =>
      hheight c (List.mem_append_left _ hc)
    have hrest' := ih hrest fun c hc => hheight c (List.mem_append_right _ hc)
    rw [helements, List.singleton_append, List.mapM_cons]
    refine (htakes.bind (hrest'.map (v :: ·)) (by simp)).mono fun e he => ⟨trivial, he⟩

theorem Rereads.many (h : Rereads site.below emit scan) {vs : List α} {min : Nat}
    (hm : emitIf (min ≤ vs.length) (emitAll (fun v => emitChild name (emit v)) vs) = some m)
    (hheight : ∀ c ∈ m.elements, c.height ≤ site.below) :
    Takes (·.name ≠ name)
      (do let values ← (← scanAll name).mapM fun e => scanChild site (scan e)
          scanMin site name min values.length
          return values)
      vs m.elements := by
  obtain ⟨henough, hm⟩ := emitIf_eq_some_iff.mp hm
  refine .ask (fun s more hrest hmore =>
    scanAll_of_named hrest (emitAll_children hm).elements hmore) ?_
  exact ((h.mapM hm hheight).enough site name (of_decide_eq_true henough)).mono
    fun _ _ => trivial

end Children

/-! ### Members -/

section Members

variable {site : Site} {child : (t : Content) → t.Carrier → Option Fragment}
  {childScan : (t : Content) → Element → Except Error (t.Carrier × Nat)} {m : Fragment}

/-- A member finds in the element what it wrote there itself. -/
structure Field.Sees (f : Field) (e : Element) (m : Fragment) : Prop where
  attr : ∀ name, f.attributeName? = some name →
    e.attribute? name = m.attributes.head?.map (·.2)
  text : f.isText = true → e.text = m.text
  bare : f = .noContent → e.attributes = [] ∧ e.text = ""

/-- Whether a member takes no notice of an element that follows. -/
def Field.Passes (f : Field) (e : Element) : Prop :=
  f ≠ .noContent ∧ f.childName? ≠ some e.name

theorem scanField_takes (h : ∀ t, Rereads site.below (child t) (childScan t)) {f : Field}
    (hf : f.isFaithful = true) {v : f.Carrier} (hm : emitField child f v = some m)
    (hsees : f.Sees site.element m) (hheight : ∀ c ∈ m.elements, c.height ≤ site.below) :
    Takes f.Passes (scanField site childScan f) v m.elements := by
  cases f with
  | attr name s =>
    obtain ⟨hvalid, rfl⟩ := emitAttr_eq_some_iff.mp hm
    have hattribute := hsees.attr name rfl
    simp only [scanField, hattribute]
    show Takes _ (ScanM.ofExcept (s.decode (s.toText v))) v []
    rw [Scalar.decode_toText hf hvalid]
    exact .pure v
  | optionalAttr name s =>
    have hattribute := hsees.attr name rfl
    simp only [scanField, hattribute]
    cases v with
    | none =>
      obtain rfl : {} = m := Option.some.inj hm
      exact .pure none
    | some w =>
      obtain ⟨m₁, m₂, hfirst, hrest, rfl⟩ := emitAll_cons_eq_some_iff.mp hm
      obtain rfl : {} = m₂ := Option.some.inj hrest
      obtain ⟨hvalid, rfl⟩ := emitAttr_eq_some_iff.mp hfirst
      show Takes _ (some <$> ScanM.ofExcept (s.decode (s.toText w))) (some w) []
      rw [Scalar.decode_toText hf hvalid]
      exact .pure (some w)
  | constant name value =>
    obtain rfl := Option.some.inj hm
    have hattribute := hsees.attr name rfl
    simp only [scanField, hattribute, List.head?_cons, Option.map_some, if_true]
    exact .pure ()
  | text s =>
    obtain ⟨hvalid, htext, helements⟩ := emitText_text hm
    simp only [scanField, hsees.text rfl, htext, helements]
    rw [Scalar.decode_toText hf hvalid]
    exact .pure v
  | optionalText s => cases hf
  | valueElement name s => exact ((rereads_value site hf).required hm hheight).mono fun _ _ => trivial
  | optionalValueElement name s =>
    have htakes := (rereads_value site hf).optional some none hm hheight
    cases v <;> exact htakes.mono fun e he hname => he.2 (congrArg some hname.symm)
  | valueElements name min s =>
    exact ((rereads_value site hf).many hm hheight).mono fun e he hname =>
      he.2 (congrArg some hname.symm)
  | noContent =>
    obtain rfl := Option.some.inj hm
    obtain ⟨hattributes, htext⟩ := hsees.bare rfl
    intro s more hrest hmore
    have hnone : more = [] := List.eq_nil_iff_forall_not_mem.mpr fun e he => (hmore e he).1 rfl
    subst hnone
    refine ⟨s, ?_, hrest, by simp⟩
    have hrest' : s.rest = [] := hrest
    simp only [scanField, scanNoContent, hattributes, hrest', htext]
    rfl
  | flag name =>
    have htakes := fun (v? : Option Unit)
        (hm : emitAll (fun _ : Unit => emitChild name (some {})) v?.toList = some m) =>
      (rereads_flag site).optional (fun _ => true) false hm hheight
    cases v with
    | true =>
      refine (htakes (some ()) ?_).mono fun e he hname => he.2 (congrArg some hname.symm)
      exact (emitAll_singleton _ ()).trans hm
    | false =>
      exact (htakes none hm).mono fun e he hname => he.2 (congrArg some hname.symm)
  | element name t => exact ((h t).required hm hheight).mono fun _ _ => trivial
  | optionalElement name t =>
    have htakes := (h t).optional some none hm hheight
    cases v <;> exact htakes.mono fun e he hname => he.2 (congrArg some hname.symm)
  | elements name min t =>
    exact ((h t).many hm hheight).mono fun e he hname => he.2 (congrArg some hname.symm)

/-- All members find in the element what they wrote there. -/
def TupleSees (child : (t : Content) → t.Carrier → Option Fragment) (e : Element) :
    (ms : List Member) → Tuple ms → Prop
  | [], _ => True
  | f :: ms, (v, vs) =>
    (∀ m, emitField child f.field v = some m → f.field.Sees e m) ∧ TupleSees child e ms vs

theorem scanTuple_takes (h : ∀ t, Rereads site.below (child t) (childScan t)) {ms : List Member}
    (hms : Separate ms) {vs : Tuple ms} (hm : emitTuple child ms vs = some m)
    (hsees : TupleSees child site.element ms vs)
    (hheight : ∀ c ∈ m.elements, c.height ≤ site.below) :
    Takes (fun e => ∀ f ∈ ms, f.field.Passes e) (scanTuple site childScan ms) vs m.elements := by
  induction ms generalizing m with
  | nil =>
    obtain rfl : {} = m := Option.some.inj hm
    exact .pure ()
  | cons f ms ih =>
    obtain ⟨v, vs⟩ := vs
    obtain ⟨m₁, m₂, hfirst, hrest, rfl⟩ := emitTuple_cons_eq_some_iff.mp hm
    rw [Fragment.elements_append] at hheight ⊢
    have htakes := scanField_takes h (hms.faithful f (by simp)) hfirst (hsees.1 m₁ hfirst)
      fun c hc => hheight c (List.mem_append_left _ hc)
    have htakes' := ih hms.tail hrest hsees.2 fun c hc => hheight c (List.mem_append_right _ hc)
    have hpasses : ∀ e ∈ m₂.elements, f.field.Passes e := by
      intro e he
      have hname := emitTuple_elements hrest e he
      refine ⟨fun hf => ?_, fun hf => hms.children_cons e.name hf hname⟩
      rw [hms.alone_cons hf] at hname
      cases hname
    refine (htakes.bind (htakes'.andReturn (v, ·)) hpasses).mono fun e he => ?_
    exact ⟨he f (by simp), fun f' hf' => he f' (by simp [hf'])⟩

/-- Attributes that others wrote before or after do not get in the way. -/
theorem find?_attribute {name : String} {before own after : List (String × String)}
    (hbefore : name ∉ before.map (·.1)) (hafter : name ∉ after.map (·.1))
    (hown : List.Sublist (own.map (·.1)) [name]) :
    (before ++ own ++ after).find? (·.1 == name) = own.head? := by
  have hnone : ∀ as : List (String × String), name ∉ as.map (·.1) →
      as.find? (·.1 == name) = none := by
    intro as has
    rw [List.find?_eq_none]
    intro a ha hname
    exact has (List.mem_map.mpr ⟨a, ha, by simpa using hname⟩)
  rw [List.find?_append, List.find?_append, hnone before hbefore, hnone after hafter]
  cases own with
  | nil => rfl
  | cons a own =>
    have ha : a.1 = name := by
      have hmem := hown.subset (List.mem_cons_self ..)
      simpa using hmem
    simp [ha]

theorem tupleSees_of_heldBy {e : Element} {ms : List Member} (hms : Separate ms) {vs : Tuple ms}
    (hm : emitTuple child ms vs = some m) (before : List (String × String))
    (hattributes : e.attributes = before ++ m.attributes)
    (hbefore : ∀ name ∈ attributeNames ms, name ∉ before.map (·.1))
    (htext : ∀ f ∈ ms, f.field.isText = true → e.text = m.text)
    (hbare : ∀ f ∈ ms, f.field = .noContent → e.attributes = [] ∧ e.text = "") :
    TupleSees child e ms vs := by
  induction ms generalizing m before with
  | nil => trivial
  | cons f ms ih =>
    obtain ⟨v, vs⟩ := vs
    obtain ⟨m₁, m₂, hfirst, hrest, rfl⟩ := emitTuple_cons_eq_some_iff.mp hm
    have hof := emitField_of f.field v hfirst
    have hrestNames := (emitTuple_attributes hrest).subset
    rw [Fragment.attributes_append, ← List.append_assoc] at hattributes
    refine ⟨fun m' hm' => ?_, ih hms.tail hrest _ hattributes ?_ ?_ fun f' hf' => ?_⟩
    · obtain rfl : m₁ = m' := Option.some.inj (hfirst.symm.trans hm')
      refine ⟨fun name hname => ?_, fun hf => ?_, hbare f (by simp)⟩
      · have hown := hof.attributes
        rw [hname] at hown
        rw [Element.attribute?, hattributes, find?_attribute _ _ hown]
        · refine hbefore name ?_
          simp [attributeNames_cons, hname]
        · exact fun hmem => hms.attributes_cons name hname (hrestNames hmem)
      · rw [htext f (by simp) hf, Fragment.text_append,
          emitTuple_text hrest (hms.text_cons hf), String.append_empty]
    · intro name hname hmem
      rw [List.map_append, List.mem_append] at hmem
      rcases hmem with hmem | hmem
      · exact hbefore name (by simp [attributeNames_cons, hname]) hmem
      · exact hms.attributes_cons name (Option.mem_toList.mp (hof.attributes.subset hmem)) hname
    · intro f' hf' hf'text
      have hf : f.field.isText = false := by
        rw [Bool.eq_false_iff]
        intro hf
        rw [hms.text_cons hf f' hf'] at hf'text
        cases hf'text
      rw [htext f' (by simp [hf']) hf'text, Fragment.text_append, hof.text hf,
        String.empty_append]
    · exact hbare f' (by simp [hf'])

/-- A group with the check that the element is empty writes nothing. -/
theorem emitTuple_bare {ms : List Member} (hms : Separate ms) {vs : Tuple ms}
    (hm : emitTuple child ms vs = some m) {f : Member} (hf : f ∈ ms)
    (hbare : f.field = .noContent) : m = {} := by
  obtain rfl := hms.alone f hf hbare
  obtain ⟨key, field⟩ := f
  obtain rfl : field = .noContent := hbare
  exact (Option.some.inj hm).symm

theorem groupSees_of_heldBy {e : Element} {g : Group} {v : g.Carrier}
    (hm : emitGroup child g v = some m) (hheld : m.HeldBy e) :
    TupleSees child e g.record.members (g.record.toTuple v) := by
  refine tupleSees_of_heldBy g.separate hm [] hheld.attributes (by simp)
    (fun _ _ _ => hheld.text) fun f hf hbare => ?_
  obtain rfl := emitTuple_bare g.separate hm hf hbare
  exact ⟨hheld.attributes, hheld.text⟩

theorem scanGroup_takes (h : ∀ t, Rereads site.below (child t) (childScan t)) {g : Group}
    {v : g.Carrier} (hm : emitGroup child g v = some m) (hheld : m.HeldBy site.element)
    (hheight : ∀ c ∈ m.elements, c.height ≤ site.below) :
    Takes (fun e => ∀ f ∈ g.record.members, f.field.Passes e) (scanGroup site childScan g) v
      m.elements := by
  have htakes := scanTuple_takes h g.separate hm (groupSees_of_heldBy hm hheld) hheight
  have hvalue := htakes.andReturn g.record.ofTuple
  rw [g.record.ofTuple_toTuple] at hvalue
  exact hvalue

end Members

/-! ### Alternatives -/

section Alternatives

variable {site : Site} {child : (t : Content) → t.Carrier → Option Fragment}
  {childScan : (t : Content) → Element → Except Error (t.Carrier × Nat)} {m : Fragment}

theorem TupleSees.constant {e : Element} {ms : List Member} {vs : Tuple ms}
    (h : TupleSees child e ms vs) {f : Member} (hf : f ∈ ms) {name value : String}
    (hconstant : f.field = .constant name value) : e.attribute? name = some value := by
  induction ms with
  | nil => cases hf
  | cons f' ms ih =>
    obtain ⟨v, vs⟩ := vs
    rcases List.mem_cons.mp hf with rfl | hf
    · obtain ⟨key, field⟩ := f
      obtain rfl : field = .constant name value := hconstant
      exact (h.1 _ rfl).attr name rfl
    · exact ih h.2 hf

variable (childScan) in
/-- A member fails where a group was written that it rejects. -/
theorem scanField_rejects {f : Field} {g : Group} (hrejects : f.rejects g.record.members = true)
    {v : g.Carrier} (hm : emitGroup child g v = some m) (hheld : m.HeldBy site.element)
    (s : Scan) : ∃ e, scanField site childScan f s = .error e ∧ e.isFatal = false := by
  cases f with
  | attr name scalar =>
    have hname : name ∉ attributeNames g.record.members := by simpa [Field.rejects] using hrejects
    have hnone : site.element.attribute? name = none := by
      rw [Element.attribute?, hheld.attributes, Option.map_eq_none_iff, List.find?_eq_none]
      intro a ha hfound
      refine hname ((emitTuple_attributes hm).subset (List.mem_map.mpr ⟨a, ha, ?_⟩))
      simpa using hfound
    exact ⟨.missingAttribute site.element.name name, by simp [scanField, hnone], rfl⟩
  | constant name value =>
    simp only [Field.rejects, List.any_eq_true] at hrejects
    obtain ⟨⟨key, field⟩, hmem, hfield⟩ := hrejects
    cases field with
    | constant name' value' =>
      simp only [Bool.and_eq_true, decide_eq_true_eq] at hfield
      obtain ⟨rfl, hne⟩ := hfield
      have hfound := (groupSees_of_heldBy hm hheld).constant hmem rfl
      exact ⟨.constantMismatch site.element.name name' value value',
        by simp [scanField, hfound, hne], rfl⟩
    | _ => simp at hfield
  | _ => simp [Field.rejects] at hrejects

theorem scanTuple_of_head {f : Member} {ms : List Member} (hms : ms.head? = some f) {s : Scan}
    {e : Error} (he : scanField site childScan f.field s = .error e) :
    scanTuple site childScan ms s = .error e := by
  cases ms with
  | nil => cases hms
  | cons f' ms =>
    obtain rfl := Option.some.inj hms
    exact ScanM.bind_of_error he

theorem scanAlternative_rejects {a b : Alternative} (hexcludes : a.excludes b = true)
    {v : b.Carrier} (hm : emitAlternative child b v = some m)
    (hheld : a.tag? = none → m.HeldBy site.element) {s : Scan} {more : List Element}
    (hrest : s.rest = m.elements ++ more) :
    ∃ e, scanAlternative site childScan a s = .error e ∧ e.isFatal = false := by
  cases a with
  | group name g =>
    cases b with
    | element name' tag t => exact nomatch hexcludes
    | group name' g' =>
      cases hhead : g.record.members.head? with
      | none => simp [Alternative.excludes, hhead] at hexcludes
      | some f =>
        have hrejects : f.field.rejects g'.record.members = true := by
          simpa [Alternative.excludes, hhead] using hexcludes
        obtain ⟨e, he, hfatal⟩ := scanField_rejects childScan hrejects hm
          (hheld rfl) s
        exact ⟨e, ScanM.bind_of_error (scanTuple_of_head hhead he), hfatal⟩
  | element name tag t =>
    cases b with
    | group name' g' => exact nomatch hexcludes
    | element name' tag' t' =>
      obtain ⟨content, -, rfl⟩ := emitChild_eq_some_iff.mp hm
      have hne : tag' ≠ tag := Ne.symm (of_decide_eq_true hexcludes)
      have hrequired := scanRequired_of_unnamed (s := s) site fun e he => by
        obtain rfl : content.toElement tag' = e := by simpa [hrest, Fragment.elements] using he
        exact hne
      exact ⟨.missingElement site.element.name tag, ScanM.bind_of_error hrequired, rfl⟩

theorem scanAlternative_takes (h : ∀ t, Rereads site.below (child t) (childScan t))
    {a : Alternative} {v : a.Carrier} (hm : emitAlternative child a v = some m)
    (hheld : a.tag? = none → m.HeldBy site.element)
    (hheight : ∀ c ∈ m.elements, c.height ≤ site.below) :
    Takes (fun _ => a.tag? ≠ none) (scanAlternative site childScan a) v m.elements := by
  cases a with
  | group name g =>
    exact (scanGroup_takes h hm (hheld rfl) hheight).mono fun e he => absurd rfl he
  | element name tag t => exact ((h t).required hm hheight).mono fun _ _ => trivial

/-- Earlier alternatives fail, so that the one that was written is read. -/
theorem scanFirst_takes (h : ∀ t, Rereads site.below (child t) (childScan t)) (choice : String)
    {as : List Alternative} (has : as.Pairwise fun a b => a.excludes b = true) {v : AnyOf as}
    (hm : emitAny child as v = some m) (hheld : ∀ a ∈ as, a.tag? = none → m.HeldBy site.element)
    (hheight : ∀ c ∈ m.elements, c.height ≤ site.below) :
    Takes (fun _ => ∀ a ∈ as, a.tag? ≠ none) (scanFirst site childScan choice as) v
      m.elements := by
  induction as with
  | nil => exact nomatch v
  | cons a as ih =>
    obtain ⟨hexcludes, has⟩ := List.pairwise_cons.mp has
    intro s more hrest hmore
    cases v with
    | inl w =>
      obtain ⟨s', hs', hrest', hconsumed'⟩ :=
        scanAlternative_takes h hm (hheld a (by simp)) hheight s more hrest fun e he =>
          hmore e he a (by simp)
      exact ⟨s', by simp only [scanFirst, hs'], hrest', hconsumed'⟩
    | inr w =>
      obtain ⟨e, he, hfatal⟩ : ∃ e, scanAlternative site childScan a s = .error e ∧
          e.isFatal = false := by
        obtain ⟨b, hb, u, hu⟩ := emitAny_alternative (show emitAny child as w = some m from hm)
        exact scanAlternative_rejects (hexcludes b hb) hu (hheld a (by simp)) hrest
      obtain ⟨s', hs', hrest', hconsumed'⟩ :=
        ih has hm (fun b hb => hheld b (by simp [hb])) s more hrest fun e he b hb =>
          hmore e he b (by simp [hb])
      refine ⟨s', ?_, hrest', hconsumed'⟩
      simp only [scanFirst, he, hfatal, Bool.false_eq_true, if_false]
      exact ScanM.map_of_ok hs'

theorem scanChoice_takes (h : ∀ t, Rereads site.below (child t) (childScan t)) {c : Choice}
    {v : c.Carrier} (hm : emitChoice child c v = some m)
    (hheld : ∀ a ∈ c.variants.alternatives, a.tag? = none → m.HeldBy site.element)
    (hheight : ∀ e ∈ m.elements, e.height ≤ site.below) :
    Takes (fun _ => ∀ a ∈ c.variants.alternatives, a.tag? ≠ none)
      (scanChoice site childScan c) v m.elements := by
  have htakes := scanFirst_takes h c.name c.excludes_alternatives hm hheld hheight
  have hvalue := htakes.andReturn c.variants.ofAny
  rw [c.variants.ofAny_toAny] at hvalue
  exact hvalue

theorem Choice.tag?_ne_none {c : Choice} {tags : List String} (htags : c.tags? = some tags) :
    ∀ a ∈ c.variants.alternatives, a.tag? ≠ none := by
  have hmap := mapM_tag?_eq_some_iff.mp htags
  intro a ha hnone
  have hmem : none ∈ tags.map some := by
    rw [← hmap, ← hnone]
    exact List.mem_map_of_mem ha
  simp at hmem

theorem scanEntries_takes (h : ∀ t, Rereads site.below (child t) (childScan t)) {c : Choice}
    {tags : List String} (htags : c.tags? = some tags) {vs : List c.Carrier}
    (hm : emitAll (emitChoice child c) vs = some m)
    (hheight : ∀ e ∈ m.elements, e.height ≤ site.below) :
    Takes (fun _ => True) (m.elements.mapM fun _ => scanChoice site childScan c) vs m.elements := by
  induction vs generalizing m with
  | nil =>
    obtain rfl : {} = m := Option.some.inj hm
    exact .pure []
  | cons v vs ih =>
    obtain ⟨m₁, m₂, hfirst, hrest, rfl⟩ := emitAll_cons_eq_some_iff.mp hm
    rw [Fragment.elements_append] at hheight ⊢
    have htakes := scanChoice_takes h hfirst
      (fun a ha hnone => absurd hnone (c.tag?_ne_none htags a ha))
      fun e he => hheight e (List.mem_append_left _ he)
    have htakes' := ih hrest fun e he => hheight e (List.mem_append_right _ he)
    obtain ⟨e, -, rfl⟩ := emitAny_element (mapM_tag?_eq_some_iff.mp htags) hfirst
    show Takes _ ((e :: m₂.elements).mapM _) _ ([e] ++ m₂.elements)
    rw [List.mapM_cons]
    exact (htakes.bind (htakes'.map (v :: ·)) fun _ _ => c.tag?_ne_none htags).mono
      fun _ _ => ⟨c.tag?_ne_none htags, trivial⟩

/-- All entries are taken, one for each of the next children that have a tag. -/
theorem scanChoices_takes (h : ∀ t, Rereads site.below (child t) (childScan t)) {c : Choice}
    {tags : List String} (htags : c.tags? = some tags) {min : Nat} {vs : List c.Carrier}
    (hm : emitChoices child c min vs = some m)
    (hheight : ∀ e ∈ m.elements, e.height ≤ site.below) :
    Takes (·.name ∉ tags) (scanChoices site childScan c min) vs m.elements := by
  obtain ⟨henough, hm⟩ := emitIf_eq_some_iff.mp hm
  intro s more hrest hmore
  have htake : s.rest.takeWhile (tags.contains ·.name) = m.elements := by
    have hnext : more.takeWhile (tags.contains ·.name) = [] := by
      cases more with
      | nil => rfl
      | cons e more => simp [hmore e (by simp)]
    rw [hrest, List.takeWhile_append_of_pos fun e he => by
      simpa using (emitAll_entries htags hm).2.1 e he, hnext, List.append_nil]
  have hrun := ((scanEntries_takes h htags hm hheight).enough site c.name
    (of_decide_eq_true henough)) s more hrest fun _ _ => trivial
  simp only [scanChoices, scanChoicesFrom, htags, htake]
  exact hrun

end Alternatives

/-! ### Contents -/

section Contents

variable {site : Site} {child : (t : Content) → t.Carrier → Option Fragment}
  {childScan : (t : Content) → Element → Except Error (t.Carrier × Nat)} {m : Fragment}

theorem scanContent_takes (h : ∀ t, Rereads site.below (child t) (childScan t)) {t : Content}
    {v : t.Carrier} (hm : emitContent child t v = some m) (hheld : m.HeldBy site.element)
    (hheight : ∀ c ∈ m.elements, c.height ≤ site.below) :
    Takes (fun _ => False) (scanContent site childScan t) v m.elements := by
  cases t with
  | group g => exact (scanGroup_takes h hm hheld hheight).mono fun e he => he.elim
  | choice c => exact (scanChoice_takes h hm (fun _ _ _ => hheld) hheight).mono fun e he => he.elim
  | series s =>
    obtain ⟨m₁, m₂, hmembers, hentries, rfl⟩ := append_eq_some_iff.mp hm
    obtain ⟨tags, htags, -, hdisjoint⟩ := s.tags?_choice
    obtain ⟨hattributes, hnames, htext⟩ :=
      emitAll_entries htags (emitIf_eq_some_iff.mp hentries).2
    rw [Fragment.elements_append] at hheight ⊢
    have hsees : TupleSees child site.element s.record.members (s.record.toParts v).1 :=
      tupleSees_of_heldBy s.separate hmembers []
        (by simp [hheld.attributes, hattributes]) (by simp)
        (fun _ _ _ => by simp [hheld.text, htext])
        fun f hf hbare => absurd hbare (s.field_ne_noContent f hf)
    have htakes := scanTuple_takes h s.separate hmembers hsees fun c hc =>
      hheight c (List.mem_append_left _ hc)
    have htakes' := scanChoices_takes h htags hentries fun c hc =>
      hheight c (List.mem_append_right _ hc)
    have hpasses : ∀ e ∈ m₂.elements, ∀ f ∈ s.record.members, f.field.Passes e := by
      intro e he f hf
      refine ⟨s.field_ne_noContent f hf, fun hname => hdisjoint e.name (hnames e he) ?_⟩
      exact List.mem_filterMap.mpr ⟨f, hf, hname⟩
    have hvalue := htakes'.andReturn fun entries =>
      s.record.ofParts ((s.record.toParts v).1, entries)
    rw [show s.record.ofParts ((s.record.toParts v).1, (s.record.toParts v).2) = v from
      s.record.ofParts_toParts v] at hvalue
    have hscan : Takes _ (scanContent site childScan (.series s)) v (m₁.elements ++ m₂.elements) :=
      Takes.bind htakes hvalue hpasses
    exact hscan.mono fun e he => he.elim

end Contents

/-! ### Levels -/

/-- By induction on the levels of the writer; the reader needs as many as the written element
has. -/
theorem rereads_levels (denyUnknown : Bool) (limit n : Nat) :
    ∀ levels t, Rereads levels (emitLevels n t) (scanLevels denyUnknown limit levels t) := by
  induction n with
  | zero => exact fun levels t v m name hm _ => nomatch hm
  | succ n ih =>
    intro levels t v m name hm hheight
    obtain ⟨k, rfl⟩ := Nat.exists_eq_succ_of_ne_zero
      (Nat.ne_of_gt (Nat.lt_of_lt_of_le (Element.height_pos _) hheight))
    let site : Site := { element := m.toElement name, denyUnknown, limit, below := k }
    have hchildren := Element.height_le_succ_iff.mp hheight
    rw [m.childElements_toElement] at hchildren
    refine Takes.scanElement site ?_
    show Takes _ _ _ (m.toElement name).childElements
    rw [m.childElements_toElement]
    exact scanContent_takes (ih k) hm (m.heldBy_toElement (emitContent_attributes hm) name) hchildren

end GuestXml.Schema
