import GuestXml.Proofs.Document.RoundTrip
import GuestXml.Schema.Layout

/-!
# Written elements follow their layout

A layout says what the elements of a type look like: which attributes they may have, and
which child elements how often, in order. It speaks of a choice in one entry, which stands for
the entries of the alternatives that are active in a value (`Layout.expand`).

Every element that is written keeps to the expanded layout of its type: attributes and child
elements stand in the order of the entries, a required entry is there, a constant has its
value, and every cardinality is obeyed (`Content.writeInto_follows_layout`). A layout is
recorded of the default of its type; every other value gives the same entries, since each
step of recording adds those of the members it goes through (`recordContent_adds`).
-/

namespace GuestXml.Schema

open Xml (Element Node)

/-! ### What entries ask for -/

/-- Whether an entry is an attribute. -/
def Entry.isAttribute (entry : Entry) : Bool :=
  match entry.kind with
  | .attr | .constant _ => true
  | _ => false

/-- Whether an entry is a child element. -/
def Entry.isChild (entry : Entry) : Bool :=
  match entry.kind with
  | .valueElement | .flag | .element => true
  | _ => false

/-- A cardinality admits a number of occurrences. -/
def Cardinality.Admits : Cardinality → Nat → Prop
  | required, n => n = 1
  | optional, n => n ≤ 1
  | atLeast min, n => min ≤ n

/-- An attribute is one that an entry asks for; a constant has its value. -/
structure Entry.IsAttribute (entry : Entry) (a : String × String) : Prop where
  name : a.1 = entry.name
  value : ∀ value, entry.kind = .constant value → a.2 = value

/-- The attributes are those of some entries, in the order of the entries, and no required
one is missing. -/
def FollowAttributes (entries : List Entry) (as : List (String × String)) : Prop :=
  ∃ written : List Entry, written.Sublist (entries.filter (·.isAttribute)) ∧
    (∀ entry ∈ entries, entry.isAttribute = true → entry.cardinality = .required →
      entry ∈ written) ∧
    List.Forall₂ Entry.IsAttribute written as

/-- The names of child elements, one block for each entry. -/
def childBlocks (entries : List Entry) (counts : List Nat) : List String :=
  (List.zipWith (fun entry n => List.replicate n entry.name) entries counts).flatten

/-- The child elements are blocks of the entries, in the order of the entries, each as long as
its cardinality admits. -/
def FollowChildren (entries : List Entry) (names : List String) : Prop :=
  ∃ counts : List Nat,
    List.Forall₂ (fun entry n => entry.cardinality.Admits n) (entries.filter (·.isChild)) counts ∧
      names = childBlocks (entries.filter (·.isChild)) counts

/-- A fragment has the attributes and child elements that entries ask for. -/
structure Fragment.Follows (m : Fragment) (entries : List Entry) : Prop where
  attributes : FollowAttributes entries m.attributes
  children : FollowChildren entries (m.elements.map (·.name))

/-! ### Active alternatives -/

/-- The entries that an alternative stands for: those of its group, or its tag. -/
def Alternative.entries : Alternative → List Entry
  | group _ g => (Content.group g).layout.entries
  | element _ tag t => [⟨.element, tag, .required, t.shortName⟩]

/-- The alternative that a value belongs to. -/
def AnyOf.active : {as : List Alternative} → AnyOf as → Alternative
  | a :: _, .inl _ => a
  | _ :: _, .inr v => active v

/-- The alternative of a choice that a value belongs to. -/
def Choice.active (c : Choice) (v : c.Carrier) : Alternative :=
  (c.variants.toAny v).active

/-- The alternatives that are active in a value, one for each choice that was made. -/
def Content.active : (t : Content) → t.Carrier → List Alternative
  | .group _, _ => []
  | .choice c, v => [c.active v]
  | .series s, v => (s.record.toParts v).2.map s.record.choice.active

/-- The entries of a layout, with those of the active alternatives in the place of a choice. -/
def Layout.expand (l : Layout) (active : List Alternative) : List Entry :=
  l.entries.flatMap fun entry =>
    if entry.kind = .choice then active.flatMap (·.entries) else [entry]

/-! ### What is recorded -/

/-- The entry of a member, if it has one. -/
def Field.entry? : Field → Option Entry
  | .attr name s => some ⟨.attr, name, .required, s.name⟩
  | .optionalAttr name s => some ⟨.attr, name, .optional, s.name⟩
  | .constant name value => some ⟨.constant value, name, .required, "string"⟩
  | .text s => some ⟨.text, "#text", .required, s.name⟩
  | .optionalText s => some ⟨.text, "#text", .optional, s.name⟩
  | .valueElement name s => some ⟨.valueElement, name, .required, s.name⟩
  | .optionalValueElement name s => some ⟨.valueElement, name, .optional, s.name⟩
  | .valueElements name min s => some ⟨.valueElement, name, .atLeast min, s.name⟩
  | .noContent => none
  | .flag name => some ⟨.flag, name, .optional, "empty"⟩
  | .element name t => some ⟨.element, name, .required, t.shortName⟩
  | .optionalElement name t => some ⟨.element, name, .optional, t.shortName⟩
  | .elements name min t => some ⟨.element, name, .atLeast min, t.shortName⟩

/-- The entry of a choice. -/
def Choice.entry (c : Choice) (cardinality : Cardinality) : Entry :=
  ⟨.choice, c.name, cardinality, c.label⟩

/-- The entries of the members of a content type, in order. -/
def Content.entries : Content → List Entry
  | .group g => g.record.members.filterMap (·.field.entry?)
  | .choice c => [c.entry .required]
  | .series s =>
    s.record.members.filterMap (·.field.entry?) ++
      [s.record.choice.entry (.atLeast s.record.min)]

theorem filterMap_entry?_cons (m : Member) (ms : List Member) :
    (m :: ms).filterMap (·.field.entry?) =
      m.field.entry?.toList ++ ms.filterMap (·.field.entry?) := by
  cases hentry : m.field.entry? with
  | none => simp [hentry]
  | some entry => simp [hentry]

/-- A step of recording does not fail, and puts entries behind those that are there. -/
def RecordM.Adds (x : RecordM Unit) (entries : List Entry) : Prop :=
  ∀ recorded, x recorded = (.ok (), recorded ++ entries)

theorem RecordM.Adds.bind {x y : RecordM Unit} {entries entries' : List Entry}
    (hx : Adds x entries) (hy : Adds y entries') : Adds (do x; y) (entries ++ entries') := by
  intro recorded
  rw [Fallible.bind_of_ok (hx recorded), hy, List.append_assoc]

theorem recordField_adds (f : Field) (v : f.Carrier) :
    RecordM.Adds (recordField f v) f.entry?.toList := by
  intro recorded
  cases f with
  | noContent => simp [recordField, Field.entry?, pure]
  | _ => rfl

theorem recordTuple_adds (ms : List Member) (vs : Tuple ms) :
    RecordM.Adds (recordTuple ms vs) (ms.filterMap (·.field.entry?)) := by
  induction ms with
  | nil =>
    intro recorded
    rw [List.filterMap_nil, List.append_nil]
    rfl
  | cons m ms ih =>
    rw [filterMap_entry?_cons]
    exact (recordField_adds m.field vs.1).bind (ih vs.2)

theorem recordContent_adds (t : Content) (v : t.Carrier) :
    RecordM.Adds (recordContent t v) t.entries := by
  cases t with
  | group g => exact recordTuple_adds g.record.members (g.record.toTuple v)
  | choice c => exact fun _ => rfl
  | series s =>
    have hchoices : RecordM.Adds
        (recordChoices s.record.choice s.record.min (s.record.toParts v).2)
        [s.record.choice.entry (.atLeast s.record.min)] := fun _ => rfl
    exact (recordTuple_adds s.record.members (s.record.toParts v).1).bind hchoices

/-- Whatever the value is, the entries of its type are recorded. -/
theorem Content.record_eq (t : Content) (v : t.Carrier) : t.record v = t.entries := by
  rw [record, recordContent_adds]
  rfl

theorem Content.layout_entries (t : Content) : t.layout.entries = t.entries :=
  t.record_eq default

/-! ### Entries in a row -/

section Rows

variable {entries entries' : List Entry}

theorem FollowAttributes.append {as as' : List (String × String)}
    (h : FollowAttributes entries as) (h' : FollowAttributes entries' as') :
    FollowAttributes (entries ++ entries') (as ++ as') := by
  obtain ⟨written, hsub, hrequired, hwritten⟩ := h
  obtain ⟨written', hsub', hrequired', hwritten'⟩ := h'
  refine ⟨written ++ written', ?_, ?_, List.rel_append hwritten hwritten'⟩
  · rw [List.filter_append]
    exact hsub.append hsub'
  · intro entry hentry hattribute hcardinality
    rcases List.mem_append.mp hentry with hentry | hentry
    · exact List.mem_append_left _ (hrequired entry hentry hattribute hcardinality)
    · exact List.mem_append_right _ (hrequired' entry hentry hattribute hcardinality)

theorem FollowChildren.append {names names' : List String} (h : FollowChildren entries names)
    (h' : FollowChildren entries' names') :
    FollowChildren (entries ++ entries') (names ++ names') := by
  obtain ⟨counts, hcounts, rfl⟩ := h
  obtain ⟨counts', hcounts', rfl⟩ := h'
  rw [FollowChildren, List.filter_append]
  refine ⟨counts ++ counts', List.rel_append hcounts hcounts', ?_⟩
  rw [childBlocks, childBlocks, childBlocks, List.zipWith_append hcounts.length_eq,
    List.flatten_append]

namespace Fragment.Follows

variable {m m' : Fragment}

theorem append (h : m.Follows entries) (h' : m'.Follows entries') :
    (m ++ m').Follows (entries ++ entries') where
  attributes := h.attributes.append h'.attributes
  children := by
    rw [Fragment.elements_append, List.map_append]
    exact h.children.append h'.children

/-- What adds no attribute and no child element asks for no entry with one. -/
theorem nothing (hattributes : m.attributes = []) (helements : m.elements = [])
    (hentries : ∀ entry ∈ entries, entry.isAttribute = false ∧ entry.isChild = false) :
    m.Follows entries where
  attributes := by
    refine ⟨[], List.nil_sublist _, ?_, hattributes ▸ .nil⟩
    intro entry hentry hattribute
    rw [(hentries entry hentry).1] at hattribute
    cases hattribute
  children := by
    have hnone : entries.filter (·.isChild) = [] := by
      rw [List.filter_eq_nil_iff]
      intro entry hentry
      simp [(hentries entry hentry).2]
    exact ⟨[], hnone ▸ .nil, by simp [helements, hnone, childBlocks]⟩

theorem empty : Fragment.Follows {} [] :=
  nothing rfl rfl (by simp)

/-- An attribute that is written for its entry. -/
theorem present {entry : Entry} {name value : String} (hname : entry.name = name)
    (hattribute : entry.isAttribute = true) (hchild : entry.isChild = false)
    (hvalue : ∀ v, entry.kind = .constant v → value = v) :
    Fragment.Follows { attributes := [(name, value)] } [entry] where
  attributes :=
    ⟨[entry], by simp [hattribute], by simp, .cons ⟨hname.symm, hvalue⟩ .nil⟩
  children := ⟨[], by simp [hchild], by simp [Fragment.elements, hchild, childBlocks]⟩

/-- An attribute that is left out. -/
theorem absent {entry : Entry} (hchild : entry.isChild = false)
    (hoptional : entry.cardinality ≠ .required) : Fragment.Follows {} [entry] where
  attributes := ⟨[], List.nil_sublist _, by simp [hoptional], .nil⟩
  children := ⟨[], by simp [hchild], by simp [hchild, childBlocks]⟩

/-- Child elements that are written for their entry. -/
theorem block {entry : Entry} {n : Nat} (hchild : entry.isChild = true)
    (hattribute : entry.isAttribute = false) (hattributes : m.attributes = [])
    (hnames : m.elements.map (·.name) = List.replicate n entry.name)
    (hn : entry.cardinality.Admits n) : m.Follows [entry] where
  attributes := ⟨[], List.nil_sublist _, by simp [hattribute], hattributes ▸ .nil⟩
  children := ⟨[n], by simp [hchild, hn], by simp [hchild, childBlocks, hnames]⟩

end Fragment.Follows

end Rows

/-! ### Members -/

section Members

variable {emit : (t : Content) → t.Carrier → Option Fragment} {m : Fragment}

/-- The child elements of a list all have the name they were emitted under. -/
theorem emitAll_names {α : Type} {name : String} {content : α → Option Fragment} {vs : List α}
    (h : emitAll (fun v => emitChild name (content v)) vs = some m) :
    m.attributes = [] ∧ m.elements.map (·.name) = List.replicate vs.length name := by
  induction vs generalizing m with
  | nil =>
    obtain rfl : {} = m := Option.some.inj h
    exact ⟨rfl, rfl⟩
  | cons v vs ih =>
    obtain ⟨m₁, m₂, hfirst, hrest, rfl⟩ := emitAll_cons_eq_some_iff.mp h
    obtain ⟨content, -, rfl⟩ := emitChild_eq_some_iff.mp hfirst
    obtain ⟨hattributes, hnames⟩ := ih hrest
    constructor
    · rw [Fragment.attributes_append, hattributes]
      rfl
    · rw [Fragment.elements_append, List.map_append, hnames, List.length_cons,
        List.replicate_succ]
      rfl

theorem emitChild_follows {name : String} {content : Option Fragment} {entry : Entry}
    (h : emitChild name content = some m) (hname : entry.name = name)
    (hchild : entry.isChild = true) (hattribute : entry.isAttribute = false)
    (hn : entry.cardinality.Admits 1) : m.Follows [entry] := by
  obtain ⟨content, -, rfl⟩ := emitChild_eq_some_iff.mp h
  exact .block hchild hattribute rfl (by simp [Fragment.elements, hname]) hn

theorem emitAll_follows {α : Type} {name : String} {content : α → Option Fragment} {vs : List α}
    {entry : Entry} (h : emitAll (fun v => emitChild name (content v)) vs = some m)
    (hname : entry.name = name) (hchild : entry.isChild = true)
    (hattribute : entry.isAttribute = false) (hn : entry.cardinality.Admits vs.length) :
    m.Follows [entry] := by
  obtain ⟨hattributes, hnames⟩ := emitAll_names h
  exact .block hchild hattribute hattributes (hname ▸ hnames) hn

theorem emitText_follows {s : Scalar} {v : s.Carrier} {entry : Entry}
    (h : emitText s v = some m) (hattribute : entry.isAttribute = false)
    (hchild : entry.isChild = false) : m.Follows [entry] := by
  obtain ⟨-, rfl⟩ := emitText_eq_some_iff.mp h
  refine .nothing ?_ ?_ (by simp [hattribute, hchild])
  · split <;> rfl
  · split <;> simp [Fragment.elements]

/-- Of an optional value there is at most one. -/
theorem length_toList_le {α : Type} (v? : Option α) : v?.toList.length ≤ 1 := by
  cases v? <;> simp

theorem emitField_follows (f : Field) (v : f.Carrier) (h : emitField emit f v = some m) :
    m.Follows f.entry?.toList := by
  cases f with
  | attr name s =>
    obtain ⟨-, rfl⟩ := emitAttr_eq_some_iff.mp h
    exact .present rfl rfl rfl (by simp)
  | optionalAttr name s =>
    cases v with
    | none =>
      obtain rfl : {} = m := Option.some.inj h
      exact .absent rfl (by simp)
    | some w =>
      obtain ⟨-, rfl⟩ := emitAttr_eq_some_iff.mp ((emitAll_singleton _ w).symm.trans h)
      exact .present rfl rfl rfl (by simp)
  | constant name value =>
    obtain rfl := Option.some.inj h
    exact .present rfl rfl rfl (by simp)
  | text s => exact emitText_follows h rfl rfl
  | optionalText s =>
    cases v with
    | none =>
      obtain rfl : {} = m := Option.some.inj h
      exact .nothing rfl rfl (by simp [Field.entry?, Entry.isAttribute, Entry.isChild])
    | some w => exact emitText_follows ((emitAll_singleton _ w).symm.trans h) rfl rfl
  | valueElement name s => exact emitChild_follows h rfl rfl rfl rfl
  | optionalValueElement name s => exact emitAll_follows h rfl rfl rfl (length_toList_le v)
  | valueElements name min s =>
    obtain ⟨hmin, hall⟩ := emitIf_eq_some_iff.mp h
    have hle : min ≤ v.length := of_decide_eq_true hmin
    exact emitAll_follows hall rfl rfl rfl hle
  | noContent =>
    obtain rfl := Option.some.inj h
    exact .empty
  | flag name =>
    cases v with
    | true =>
      have hm : emitChild name (some {}) = some m := h
      exact emitChild_follows hm rfl rfl rfl (Nat.le_refl 1)
    | false =>
      obtain rfl : {} = m := Option.some.inj h
      exact .block (n := 0) rfl rfl rfl rfl (Nat.zero_le 1)
  | element name t => exact emitChild_follows h rfl rfl rfl rfl
  | optionalElement name t => exact emitAll_follows h rfl rfl rfl (length_toList_le v)
  | elements name min t =>
    obtain ⟨hmin, hall⟩ := emitIf_eq_some_iff.mp h
    have hle : min ≤ v.length := of_decide_eq_true hmin
    exact emitAll_follows hall rfl rfl rfl hle

theorem emitTuple_follows {ms : List Member} {vs : Tuple ms}
    (h : emitTuple emit ms vs = some m) : m.Follows (ms.filterMap (·.field.entry?)) := by
  induction ms generalizing m with
  | nil =>
    obtain rfl : {} = m := Option.some.inj h
    exact .empty
  | cons f ms ih =>
    obtain ⟨m₁, m₂, hfirst, hrest, rfl⟩ := emitTuple_cons_eq_some_iff.mp h
    rw [filterMap_entry?_cons]
    exact (emitField_follows f.field _ hfirst).append (ih hrest)

/-! ### Contents -/

theorem emitAlternative_follows {a : Alternative} {v : a.Carrier}
    (h : emitAlternative emit a v = some m) : m.Follows a.entries := by
  cases a with
  | group name g =>
    rw [Alternative.entries, Content.layout_entries]
    exact emitTuple_follows h
  | element name tag t => exact emitChild_follows h rfl rfl rfl rfl

theorem emitAny_follows {as : List Alternative} {v : AnyOf as}
    (h : emitAny emit as v = some m) : m.Follows v.active.entries := by
  induction as with
  | nil => exact nomatch v
  | cons a as ih =>
    cases v with
    | inl w => exact emitAlternative_follows h
    | inr w => exact ih h

theorem emitAll_choice_follows {c : Choice} {vs : List c.Carrier}
    (h : emitAll (emitChoice emit c) vs = some m) :
    m.Follows ((vs.map c.active).flatMap (·.entries)) := by
  induction vs generalizing m with
  | nil =>
    obtain rfl : {} = m := Option.some.inj h
    exact .empty
  | cons v vs ih =>
    obtain ⟨m₁, m₂, hfirst, hrest, rfl⟩ := emitAll_cons_eq_some_iff.mp h
    rw [List.map_cons, List.flatMap_cons]
    exact (emitAny_follows hfirst).append (ih hrest)

/-- No member is a choice. -/
theorem kind_ne_choice {ms : List Member} {entry : Entry}
    (h : entry ∈ ms.filterMap (·.field.entry?)) : entry.kind ≠ .choice := by
  obtain ⟨⟨key, f⟩, -, hf⟩ := List.mem_filterMap.mp h
  cases f with
  | noContent => cases hf
  | _ =>
    obtain rfl := Option.some.inj hf
    simp

/-- An expanded layout has the entries of members as they are. -/
theorem flatMap_entries (ms : List Member) (active : List Alternative) :
    ((ms.filterMap (·.field.entry?)).flatMap fun entry =>
      if entry.kind = .choice then active.flatMap (·.entries) else [entry]) =
      ms.filterMap (·.field.entry?) := by
  have hkind : ∀ entry ∈ ms.filterMap (·.field.entry?), entry.kind ≠ .choice :=
    fun _ hentry => kind_ne_choice hentry
  generalize ms.filterMap (·.field.entry?) = entries at hkind ⊢
  induction entries with
  | nil => rfl
  | cons entry entries ih =>
    have hrest := ih fun entry' hentry' => hkind entry' (List.mem_cons_of_mem _ hentry')
    rw [List.flatMap_cons, hrest, if_neg (hkind entry List.mem_cons_self)]
    rfl

theorem emitContent_follows {t : Content} {v : t.Carrier} (h : emitContent emit t v = some m) :
    m.Follows (t.layout.expand (t.active v)) := by
  cases t with
  | group g =>
    have hentries : (Content.group g).layout.expand ((Content.group g).active v) =
        g.record.members.filterMap (·.field.entry?) := by
      rw [Layout.expand, Content.layout_entries]
      exact flatMap_entries _ _
    rw [hentries]
    exact emitTuple_follows h
  | choice c =>
    have hentries : (Content.choice c).layout.expand ((Content.choice c).active v) =
        (c.active v).entries := by
      simp [Layout.expand, Content.layout_entries, Content.entries, Choice.entry, Content.active]
    rw [hentries]
    exact emitAny_follows h
  | series s =>
    obtain ⟨m₁, m₂, hmembers, hentries, rfl⟩ := append_eq_some_iff.mp h
    have hexpand : (Content.series s).layout.expand ((Content.series s).active v) =
        s.record.members.filterMap (·.field.entry?) ++
          ((s.record.toParts v).2.map s.record.choice.active).flatMap (·.entries) := by
      simp only [Layout.expand, Content.layout_entries, Content.entries, Content.active,
        List.flatMap_append, flatMap_entries]
      simp [Choice.entry]
    rw [hexpand]
    exact (emitTuple_follows hmembers).append
      (emitAll_choice_follows (emitIf_eq_some_iff.mp hentries).2)

/-- As many alternatives are active as the entry of the choice admits. -/
theorem emitContent_admits {t : Content} {v : t.Carrier} (h : emitContent emit t v = some m) :
    ∀ entry ∈ t.layout.entries, entry.kind = .choice →
      entry.cardinality.Admits (t.active v).length := by
  intro entry hentry hkind
  rw [Content.layout_entries] at hentry
  cases t with
  | group g => exact absurd hkind (kind_ne_choice hentry)
  | choice c =>
    obtain rfl : entry = c.entry .required := List.mem_singleton.mp hentry
    rfl
  | series s =>
    obtain ⟨-, m₂, -, hentries, -⟩ := append_eq_some_iff.mp h
    rcases List.mem_append.mp hentry with hentry | hentry
    · exact absurd hkind (kind_ne_choice hentry)
    · obtain rfl := List.mem_singleton.mp hentry
      have hmin := of_decide_eq_true (emitIf_eq_some_iff.mp hentries).1
      simpa [Choice.entry, Cardinality.Admits, Content.active] using hmin

end Members

namespace Content

/-- **Written elements follow their layout.** A value that is written into an element without
attributes and content makes it an element whose attributes and child elements are those of
the layout of the type, with the entries of the active alternatives in the place of a choice:
in the order of the entries, with all that is required, and as often as each cardinality says.
So many alternatives are active as the entry of the choice admits. Recording any value gives
the entries of that layout. -/
theorem writeInto_follows_layout (t : Content) :
    (∀ v : t.Carrier, t.record v = t.layout.entries) ∧
      ∀ (v : t.Carrier) (dst e : Element), dst.attributes = [] → dst.children = [] →
        t.writeInto v dst = .ok e →
          FollowAttributes (t.layout.expand (t.active v)) e.attributes ∧
          FollowChildren (t.layout.expand (t.active v)) (e.childElements.map (·.name)) ∧
          ∀ entry ∈ t.layout.entries, entry.kind = .choice →
            entry.cardinality.Admits (t.active v).length := by
  refine ⟨fun v => (t.record_eq v).trans t.layout_entries.symm, ?_⟩
  intro v dst e hattributes hchildren hwrite
  obtain ⟨m, hm, rfl⟩ := (writeInto_eq_toElement_iff hattributes hchildren).mp hwrite
  have hheld := m.heldBy_toElement (emitLevels_attributes hm) dst.name
  rw [hheld.attributes, hheld.elements]
  unfold emit at hm
  cases hlevels : t.levels v with
  | zero =>
    rw [hlevels] at hm
    cases hm
  | succ n =>
    rw [hlevels] at hm
    have hfollows := emitContent_follows hm
    exact ⟨hfollows.attributes, hfollows.children, emitContent_admits hm⟩

/-- A rule has a child element for each of its criteria, and an address has the attributes of
its alternative, with the constant first. -/
theorem writeInto_follows_layout_rule :
    let rule : Rule :=
      { action := .accept, direction := .inbound, criteria := [.tcp {}, .ip {}, .tcp {}] }
    let rules := (series .rule).layout.expand (active (.series .rule) rule)
    let written : Element :=
      { name := "rule", attributes := [("action", "accept"), ("direction", "in")],
        children := [.element { name := "tcp" }, .element { name := "ip" },
          .element { name := "tcp" }] }
    let address : DeviceAddress := .usb { bus := .ofNat 0, port := "1.2" }
    let addresses := (choice .deviceAddress).layout.expand (active (.choice .deviceAddress) address)
    let writtenAddress : Element :=
      { name := "address", attributes := [("type", "usb"), ("bus", "0"), ("port", "1.2")] }
    writeInto (.series .rule) rule { name := "rule" } = .ok written ∧
      rules.map (·.name) =
        ["action", "direction", "priority", "statematch", "tcp", "ip", "tcp"] ∧
      FollowAttributes rules written.attributes ∧
      FollowChildren rules (written.childElements.map (·.name)) ∧
      writeInto (.choice .deviceAddress) address { name := "address" } = .ok writtenAddress ∧
      FollowAttributes addresses writtenAddress.attributes := by
  intro rule rules written address addresses writtenAddress
  have hrule : writeInto (.series .rule) rule { name := "rule" } = .ok written := by
    decide
  have haddress : writeInto (.choice .deviceAddress) address { name := "address" } =
      .ok writtenAddress := by decide
  obtain ⟨-, hfollows⟩ := writeInto_follows_layout (.series .rule)
  obtain ⟨hattributes, hchildren, -⟩ := hfollows rule _ _ rfl rfl hrule
  obtain ⟨-, hfollows⟩ := writeInto_follows_layout (.choice .deviceAddress)
  obtain ⟨hconstant, -⟩ := hfollows address _ _ rfl rfl haddress
  exact ⟨hrule, by decide, hattributes, hchildren, haddress, hconstant⟩

end Content

end GuestXml.Schema
