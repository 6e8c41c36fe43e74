import GuestXml.Proofs.Reading.Agreement
import GuestXml.Proofs.Reading.Depth
import GuestXml.Proofs.Reading.Leftover

/-!
# Chains of images

The elements `backingStore` below a disk, one inside the other, say on which images its own
image stands. Each of them is a further image or the bare mark that the chain ends there, and
since the mark is an alternative of the same choice as an image, a chain could also be read
shorter than it is. It never is: `Backs` says what an element and the chain read below it have
in common, link by link, and every loaded disk has it (`Content.backs_of_load`).

* `Content.load_backing_chain`: the chain of a loaded disk has one link for each element on
  the way down, and ends where the elements end; with a defective layer nothing is loaded.
-/

namespace GuestXml

/-! ### The way down -/

namespace Xml.Element

mutual
/-- The elements with a name on the way down from an element: its first child with that name,
the first such child of this one, and so on. -/
def descent (name : String) : Element → List Element
  | ⟨_, _, cs⟩ => descentIn name cs

/-- The way down from the first element with a name among some nodes. -/
def descentIn (name : String) : List Node → List Element
  | [] => []
  | .element e :: r => if e.name == name then e :: e.descent name else descentIn name r
  | .text _ :: r => descentIn name r
end

theorem descentIn_eq (name : String) (ns : List Node) :
    descentIn name ns =
      match (ns.filterMap Node.element?).find? (·.name == name) with
      | none => []
      | some c => c :: c.descent name := by
  induction ns with
  | nil => rfl
  | cons n ns ih =>
    cases n with
    | text s => exact ih
    | element e =>
      have hmap : (Node.element e :: ns).filterMap Node.element? =
          e :: ns.filterMap Node.element? := rfl
      rw [hmap, List.find?_cons]
      by_cases hname : (e.name == name) = true
      · rw [descentIn, if_pos hname, hname]
      · rw [descentIn, if_neg hname, Bool.eq_false_iff.mpr hname, ih]

theorem descent_eq (name : String) (e : Element) :
    e.descent name =
      match e.child? name with
      | none => []
      | some c => c :: c.descent name := by
  obtain ⟨_, _, cs⟩ := e
  exact descentIn_eq name cs

theorem descent_of_none {name : String} {e : Element} (h : e.child? name = none) :
    e.descent name = [] := by
  rw [descent_eq, h]

theorem descent_of_some {name : String} {e c : Element} (h : e.child? name = some c) :
    e.descent name = c :: c.descent name := by
  rw [descent_eq, h]

/-- Nothing in an element: no attributes, no child elements and no text but blanks. -/
def IsBare (e : Element) : Prop :=
  e.attributes = [] ∧ e.childElements = [] ∧ Text.isBlankText e.text = true

instance (e : Element) : Decidable e.IsBare :=
  inferInstanceAs (Decidable (_ ∧ _ ∧ _))

end Xml.Element

open Xml (Element)

/-! ### The chain of a value -/

mutual
/-- The links below a layer. -/
def BackingLayer.links : BackingLayer → List BackingStore
  | ⟨_, _, _, _, none⟩ => []
  | ⟨_, _, _, _, some b⟩ => b.links

/-- The links of a chain from a link downwards. -/
def BackingStore.links : BackingStore → List BackingStore
  | .layer l => .layer l :: l.links
  | .done b => [.done b]
end

mutual
/-- The mark at the end of the chain below a layer, if there is one. -/
def BackingLayer.ending : BackingLayer → Option Bare
  | ⟨_, _, _, _, none⟩ => none
  | ⟨_, _, _, _, some b⟩ => b.ending

/-- The mark at the end of a chain, if there is one. -/
def BackingStore.ending : BackingStore → Option Bare
  | .layer l => l.ending
  | .done b => some b
end

/-- The links of the chain below the image of a disk. -/
def Disk.links (d : Disk) : List BackingStore :=
  (d.backingStore.map BackingStore.links).getD []

/-- The mark at the end of the chain of a disk, if there is one. -/
def Disk.ending (d : Disk) : Option Bare :=
  d.backingStore.bind BackingStore.ending

theorem BackingLayer.links_eq (l : BackingLayer) :
    l.links = (l.backingStore.map BackingStore.links).getD [] := by
  obtain ⟨_, _, _, _, _ | b⟩ := l <;> rfl

theorem BackingLayer.ending_eq (l : BackingLayer) :
    l.ending = l.backingStore.bind BackingStore.ending := by
  obtain ⟨_, _, _, _, _ | b⟩ := l <;> rfl

theorem BackingLayer.depth_eq (l : BackingLayer) :
    l.depth = (l.backingStore.map BackingStore.depth).getD 0 + 1 := by
  obtain ⟨_, _, _, _, _ | b⟩ := l <;> rfl

namespace Schema

/-! ### Elements and chains -/

/-- The children that are links of the chain. -/
def backingChildren (e : Element) : List Element :=
  e.childElements.filter (·.name == "backingStore")

/-- A link is what an element says: a layer that the element loads to, or the mark for an
element with nothing in it. -/
def LinkOf (o : LoadOptions) (c : Element) : BackingStore → Prop
  | .layer l => c.attributes ≠ [] ∧ (Content.group .backingLayer).load o c = .ok l
  | .done _ => c.IsBare

/-- The chain below an element: each layer stands in the only child that is a link, and goes on
inside that child. -/
inductive Backs (o : LoadOptions) : Element → Option BackingStore → Prop where
  | absent {e : Element} (h : backingChildren e = []) : Backs o e none
  | mark {e c : Element} {b : Bare} (h : backingChildren e = [c]) (hc : c.IsBare) :
    Backs o e (some (.done b))
  | layer {e c : Element} {l : BackingLayer} (h : backingChildren e = [c])
    (hattributes : c.attributes ≠ []) (hc : (Content.group .backingLayer).load o c = .ok l)
    (hmore : Backs o c l.backingStore) : Backs o e (some (.layer l))

theorem child?_of_backingChildren {e : Element} :
    e.child? "backingStore" = (backingChildren e).head? :=
  List.head?_filter.symm

/-- The last layer on the way down from an element, or the element itself. -/
def lastLayer (e : Element) : Element :=
  ((e.descent "backingStore").filter (·.attributes ≠ [])).getLastD e

namespace Backs

variable {o : LoadOptions} {e : Element} {b? : Option BackingStore}

theorem links (h : Backs o e b?) :
    (e.descent "backingStore").Forall₂ (LinkOf o) ((b?.map BackingStore.links).getD []) := by
  induction h with
  | absent h =>
    rw [Element.descent_of_none (by rw [child?_of_backingChildren, h]; rfl)]
    exact .nil
  | @mark e c b h hc =>
    rw [Element.descent_of_some (by rw [child?_of_backingChildren, h]; rfl),
      Element.descent_of_none (by rw [Element.child?, hc.2.1]; rfl)]
    exact .cons hc .nil
  | @layer e c l h hattributes hc _ ih =>
    rw [Element.descent_of_some (by rw [child?_of_backingChildren, h]; rfl)]
    rw [← l.links_eq] at ih
    exact .cons ⟨hattributes, hc⟩ ih

/-- No other child than the one on the way down is a link. -/
theorem single (h : Backs o e b?) :
    ∀ c ∈ e :: e.descent "backingStore", (backingChildren c).length ≤ 1 := by
  induction h with
  | absent h =>
    rw [Element.descent_of_none (by rw [child?_of_backingChildren, h]; rfl)]
    simp [h]
  | @mark e c b h hc =>
    have hnone : backingChildren c = [] := by rw [backingChildren, hc.2.1]; rfl
    rw [Element.descent_of_some (by rw [child?_of_backingChildren, h]; rfl),
      Element.descent_of_none (by rw [child?_of_backingChildren, hnone]; rfl)]
    simp [h, hnone]
  | @layer e c l h hattributes hc _ ih =>
    rw [Element.descent_of_some (by rw [child?_of_backingChildren, h]; rfl)]
    exact List.forall_mem_cons.mpr ⟨by simp [h], ih⟩

/-- There is one layer for each element with attributes. -/
theorem depth (h : Backs o e b?) :
    (b?.map BackingStore.depth).getD 0 =
      (e.descent "backingStore").countP (·.attributes ≠ []) := by
  induction h with
  | absent h =>
    rw [Element.descent_of_none (by rw [child?_of_backingChildren, h]; rfl)]
    rfl
  | @mark e c b h hc =>
    rw [Element.descent_of_some (by rw [child?_of_backingChildren, h]; rfl),
      Element.descent_of_none (by rw [Element.child?, hc.2.1]; rfl)]
    simp [hc.1, BackingStore.depth]
  | @layer e c l h hattributes hc _ ih =>
    rw [Element.descent_of_some (by rw [child?_of_backingChildren, h]; rfl),
      List.countP_cons_of_pos (by simpa using hattributes), ← ih, ← l.depth_eq]
    rfl

/-- The chain has a mark at its end if the innermost element on the way down is bare. -/
theorem isSome_ending (h : Backs o e b?) :
    (b?.bind BackingStore.ending).isSome = true ↔
      ∃ c, (e.descent "backingStore").getLast? = some c ∧ c.IsBare := by
  induction h with
  | absent h =>
    rw [Element.descent_of_none (by rw [child?_of_backingChildren, h]; rfl)]
    simp
  | @mark e c b h hc =>
    rw [Element.descent_of_some (by rw [child?_of_backingChildren, h]; rfl),
      Element.descent_of_none (by rw [Element.child?, hc.2.1]; rfl)]
    exact ⟨fun _ => ⟨c, rfl, hc⟩, fun _ => rfl⟩
  | @layer e c l h hattributes hc _ ih =>
    rw [Element.descent_of_some (by rw [child?_of_backingChildren, h]; rfl), Option.bind_some,
      BackingStore.ending, l.ending_eq, ih, List.getLast?_cons]
    cases hlast : (c.descent "backingStore").getLast? with
    | none =>
      constructor
      · rintro ⟨c', hc', -⟩
        cases hc'
      · rintro ⟨c', hc', hbare⟩
        cases hc'
        exact absurd hbare.1 hattributes
    | some c' => rfl

/-- The chain is open at its end if the last layer has no child that is a link. -/
theorem ending_eq_none (h : Backs o e b?) :
    b?.bind BackingStore.ending = none ↔ (lastLayer e).child? "backingStore" = none := by
  induction h with
  | @absent e h =>
    have hnone : e.child? "backingStore" = none := by rw [child?_of_backingChildren, h]; rfl
    simp [lastLayer, Element.descent_of_none hnone, hnone]
  | @mark e c b h hc =>
    have hchild : e.child? "backingStore" = some c := by rw [child?_of_backingChildren, h]; rfl
    have hnone : c.child? "backingStore" = none := by rw [Element.child?, hc.2.1]; rfl
    simp [lastLayer, Element.descent_of_some hchild, Element.descent_of_none hnone, hc.1, hchild,
      BackingStore.ending]
  | @layer e c l h hattributes hc _ ih =>
    have hchild : e.child? "backingStore" = some c := by rw [child?_of_backingChildren, h]; rfl
    have hlast : lastLayer e = lastLayer c := by
      rw [lastLayer, Element.descent_of_some hchild,
        List.filter_cons_of_pos (by simpa using hattributes), List.getLastD_cons, lastLayer]
    rw [hlast, ← ih, Option.bind_some, BackingStore.ending, l.ending_eq]

end Backs

/-! ### The children of a member -/

/-- The value of the member at a place. -/
def Tuple.at : {ms : List Member} → Tuple ms → (i : Fin ms.length) → (ms.get i).field.Carrier
  | _ :: _, (v, _), ⟨0, _⟩ => v
  | _ :: _, (_, vs), ⟨i + 1, h⟩ => Tuple.at vs ⟨i, Nat.lt_of_succ_lt_succ h⟩

section Covering

variable {nested : (t : Content) → t.Carrier → Element → Prop} {name : String}
  {es : List Element}

theorem CoversAll.name_eq {α : Type} {readFrom : α → Element → Prop} {vs : List α}
    (h : CoversAll (OfChild name readFrom) vs es) : ∀ c ∈ es, c.name = name := by
  induction vs generalizing es with
  | nil =>
    obtain rfl : es = [] := h
    exact fun c hc => nomatch hc
  | cons v vs ih =>
    obtain ⟨front, back, rfl, ⟨e, rfl, rfl, -⟩, hback⟩ := h
    exact List.forall_mem_cons.mpr ⟨rfl, ih hback⟩

/-- The children that a member covers have its name. -/
theorem Field.Covers.name_eq {f : Field} {v : f.Carrier} (h : f.Covers nested v es) :
    ∀ c ∈ es, f.childName? = some c.name := by
  have hnamed {name : String} (h : ∀ c ∈ es, c.name = name) : ∀ c ∈ es, some name = some c.name :=
    fun c hc => congrArg some (h c hc).symm
  cases f with
  | valueElement | element =>
    obtain ⟨e, rfl, rfl, -⟩ := h
    exact hnamed fun c hc => congrArg Element.name (List.mem_singleton.mp hc)
  | optionalValueElement | valueElements | optionalElement | elements =>
    exact hnamed (CoversAll.name_eq h)
  | flag name =>
    cases v with
    | false =>
      obtain rfl : es = [] := h
      exact fun c hc => nomatch hc
    | true =>
      obtain ⟨e, rfl, rfl, -⟩ := h
      exact hnamed fun c hc => congrArg Element.name (List.mem_singleton.mp hc)
  | _ =>
    obtain rfl : es = [] := h
    exact fun c hc => nomatch hc

theorem TupleCovers.mem_childNames {ms : List Member} {vs : Tuple ms}
    (h : TupleCovers nested ms vs es) : ∀ c ∈ es, c.name ∈ childNames ms := by
  induction ms generalizing es with
  | nil =>
    obtain rfl : es = [] := h
    exact fun c hc => nomatch hc
  | cons m ms ih =>
    obtain ⟨front, back, rfl, hfront, hback⟩ := h
    intro c hc
    rw [childNames_cons, List.mem_append, Option.mem_toList]
    rcases List.mem_append.mp hc with hc | hc
    · exact .inl (hfront.name_eq c hc)
    · exact .inr (ih hback c hc)

/-- The children with the name of a member are those that it covers. -/
theorem TupleCovers.at {ms : List Member} {vs : Tuple ms} (h : TupleCovers nested ms vs es)
    (hms : (childNames ms).Nodup) (i : Fin ms.length)
    (hi : (ms.get i).field.childName? = some name) :
    (ms.get i).field.Covers nested (vs.at i) (es.filter (·.name == name)) := by
  induction ms generalizing es with
  | nil => exact i.elim0
  | cons m ms ih =>
    obtain ⟨front, back, rfl, hfront, hback⟩ := h
    rw [childNames_cons] at hms
    obtain ⟨-, hlater, hnew⟩ := List.nodup_append.mp hms
    rw [List.filter_append]
    obtain ⟨_ | i, hlt⟩ := i
    · have hm : m.field.childName? = some name := hi
      have hall : front.filter (·.name == name) = front := by
        refine List.filter_eq_self.mpr fun c hc => ?_
        have hname := hfront.name_eq c hc
        rw [hm] at hname
        exact beq_iff_eq.mpr (Option.some.inj hname).symm
      have hnone : back.filter (·.name == name) = [] := by
        refine List.filter_eq_nil_iff.mpr fun c hc hname => ?_
        exact hnew name (Option.mem_toList.mpr hm) c.name (hback.mem_childNames c hc)
          (eq_of_beq hname).symm
      rw [hall, hnone, List.append_nil]
      exact hfront
    · have hi' : (ms.get ⟨i, Nat.lt_of_succ_lt_succ hlt⟩).field.childName? = some name := hi
      have hmem : name ∈ childNames ms :=
        List.mem_filterMap.mpr ⟨_, List.get_mem ms _, hi'⟩
      have hnone : front.filter (·.name == name) = [] := by
        refine List.filter_eq_nil_iff.mpr fun c hc hname => ?_
        exact hnew c.name (Option.mem_toList.mpr (hfront.name_eq c hc)) name hmem
          (eq_of_beq hname)
      rw [hnone, List.nil_append]
      exact ih hback hlater ⟨i, Nat.lt_of_succ_lt_succ hlt⟩ hi

end Covering

/-! ### What a scan takes for links -/

section Scanning

variable {site : Site} {child : (t : Content) → Element → Except Error (t.Carrier × Nat)}
  {s s' : Scan}

theorem scanNoContent_eq_ok (h : scanNoContent site s = .ok ((), s')) :
    site.element.attributes = [] ∧ s.rest = [] ∧
      Text.isBlankText site.element.text = true := by
  unfold scanNoContent at h
  rcases hattributes : site.element.attributes with _ | ⟨⟨name, value⟩, attributes⟩
  case cons =>
    rw [hattributes] at h
    cases h
  case nil =>
    rcases hrest : s.rest with _ | ⟨extra, rest⟩
    case cons =>
      rw [hattributes, hrest] at h
      cases h
    case nil =>
      rw [hattributes, hrest] at h
      refine ⟨rfl, rfl, by_contra fun hblank => ?_⟩
      simp only [if_neg hblank] at h
      cases h

theorem attributes_ne_nil_of_scanTuple {key name : String} {t : Scalar} {ms : List Member}
    {vs : Tuple (⟨key, .attr name t⟩ :: ms)}
    (h : scanTuple site child (⟨key, .attr name t⟩ :: ms) s = .ok (vs, s')) :
    site.element.attributes ≠ [] := by
  obtain ⟨v, s₁, hv, -⟩ := ScanM.bind_eq_ok_iff.mp h
  intro hnil
  have hnone : site.element.attribute? name = none := by rw [Element.attribute?, hnil]; rfl
  simp only [scanField, hnone] at hv
  cases hv

variable {denyUnknown : Bool} {limit n k : Nat} {e c : Element}

/-- Whether a value of a type was read from an element on some levels. -/
def ReadOn (denyUnknown : Bool) (limit n : Nat) (t : Content) (v : t.Carrier) (e : Element) : Prop :=
  ∃ k, scanLevels denyUnknown limit n t e = .ok (v, k)

/-- The children with the name of a member were read for it: those left over have other
names. -/
theorem covers_of_scanLevels {g : Group} {v : g.Carrier}
    (h : scanLevels denyUnknown limit (n + 1) (.group g) e = .ok (v, k))
    (i : Fin g.record.members.length) {name : String}
    (hi : (g.record.members.get i).field.childName? = some name) :
    (g.record.members.get i).field.Covers (ReadOn denyUnknown limit n) ((g.record.toTuple v).at i)
      (e.childElements.filter (·.name == name)) := by
  let site : Site := { element := e, denyUnknown, limit, below := n }
  have hread (t : Content) (e : Element) (v : t.Carrier) (k : Nat)
      (hv : scanLevels denyUnknown limit n t e = .ok (v, k)) : ReadOn denyUnknown limit n t v e :=
    ⟨k, hv⟩
  have haccounts : Accounts _ _ (scanGroup site (scanLevels denyUnknown limit n) g) :=
    scanGroup_accounts hread g
  obtain ⟨s, hs, hleft, -⟩ := scanElement_eq_ok_iff.mp h
  obtain ⟨⟨taken, hrest, htaken⟩, -⟩ := haccounts _ v s hs
  have hname : name ∈ childNames g.record.members :=
    List.mem_filterMap.mpr ⟨_, List.get_mem _ i, hi⟩
  have hnone : s.rest.filter (·.name == name) = [] := by
    refine List.filter_eq_nil_iff.mpr fun c hc hsame => ?_
    exact haccounts.fault?_eq_none hs (hleft c hc) (eq_of_beq hsame ▸ hname)
  have hchildren : e.childElements = taken ++ s.rest := hrest
  rw [hchildren, List.filter_append, hnone, List.append_nil]
  exact htaken.at g.separate.children i hi

/-- The link of a disk or a layer was read from the children that are links. -/
def LinkRead (denyUnknown : Bool) (limit n : Nat) (e : Element) (b? : Option BackingStore) : Prop :=
  (Field.optionalElement "backingStore" (.choice .backingStore)).Covers
    (ReadOn denyUnknown limit n) b? (backingChildren e)

theorem linkRead_of_disk {d : Disk}
    (h : scanLevels denyUnknown limit (n + 1) (.group .disk) e = .ok (d, k)) :
    LinkRead denyUnknown limit n e d.backingStore :=
  covers_of_scanLevels h ⟨4, by decide⟩ rfl

theorem linkRead_of_layer {l : BackingLayer}
    (h : scanLevels denyUnknown limit (n + 1) (.group .backingLayer) e = .ok (l, k)) :
    LinkRead denyUnknown limit n e l.backingStore :=
  covers_of_scanLevels h ⟨4, by decide⟩ rfl

/-- A link is read as a layer or as the mark. -/
theorem scanLevels_backingStore {b : BackingStore}
    (h : scanLevels denyUnknown limit (n + 1) (.choice .backingStore) c = .ok (b, k)) :
    (∃ l, b = .layer l ∧
      scanLevels denyUnknown limit (n + 1) (.group .backingLayer) c = .ok (l, k)) ∨
      ∃ mark, b = .done mark ∧ c.IsBare := by
  let site : Site := { element := c, denyUnknown, limit, below := n }
  obtain ⟨s, hs, hleft, hk⟩ := scanElement_eq_ok_iff.mp h
  obtain ⟨v, s₁, hv, hs₁⟩ := ScanM.bind_eq_ok_iff.mp hs
  cases hs₁
  rcases scanFirst_eq_ok hv with ⟨l, hl, rfl⟩ | ⟨w, hw, rfl⟩
  · exact .inl ⟨l, rfl, scanElement_eq_ok_iff.mpr ⟨s, hl, hleft, hk⟩⟩
  · rcases scanFirst_eq_ok hw with ⟨mark, hmark, rfl⟩ | ⟨w', hw', rfl⟩
    · refine .inr ⟨mark, rfl, ?_⟩
      obtain ⟨vs, s₂, hvs, -⟩ := ScanM.bind_eq_ok_iff.mp hmark
      obtain ⟨u, s₃, hu, -⟩ := ScanM.bind_eq_ok_iff.mp hvs
      exact scanNoContent_eq_ok hu
    · exact w'.elim

theorem attributes_ne_nil_of_layer {l : BackingLayer}
    (h : scanLevels denyUnknown limit (n + 1) (.group .backingLayer) c = .ok (l, k)) :
    c.attributes ≠ [] := by
  obtain ⟨s, hs, -⟩ := scanElement_eq_ok_iff.mp h
  obtain ⟨vs, s₁, hvs, -⟩ := ScanM.bind_eq_ok_iff.mp hs
  exact attributes_ne_nil_of_scanTuple hvs

end Scanning

/-! ### Loading -/

section Loading

variable {o : LoadOptions} {e c : Element}

/-- What is read on some of the levels is loaded under all of them. -/
theorem load_of_scanLevels {t : Content} (ht : t.tag? = none) {n k : Nat} {v : t.Carrier}
    (hn : n ≤ max o.maxDepth 1)
    (h : scanLevels o.denyUnknown (max o.maxDepth 1) n t c = .ok (v, k)) :
    t.load o c = .ok v := by
  have hcut : CutAt n (max o.maxDepth 1) c (scanLevels o.denyUnknown (max o.maxDepth 1) n t c)
      (scanLevels o.denyUnknown (max o.maxDepth 1) (max o.maxDepth 1) t c) :=
    scanLevels_cut o.denyUnknown hn t c
  have hread : t.readRoot o c = .ok (v, k) := by
    rw [t.readRoot_eq_scan]
    rcases hcut.eq with hsame | hlow
    · rw [← hsame, h]
    · rw [h] at hlow
      cases hlow
  exact Content.load_eq_ok_iff.mpr ⟨by simp [ht], k, hread⟩

/-- By induction on the levels: the links below an element are read on fewer of them. -/
theorem backs_of_linkRead {n : Nat} (hn : n ≤ max o.maxDepth 1) {b? : Option BackingStore}
    (h : LinkRead o.denyUnknown (max o.maxDepth 1) n e b?) : Backs o e b? := by
  induction n generalizing e b? with
  | zero =>
    cases b? with
    | none => exact .absent h
    | some b =>
      obtain ⟨_, _, -, ⟨c, -, -, k, hk⟩, -⟩ := h
      cases hk
  | succ n ih =>
    cases b? with
    | none => exact .absent h
    | some b =>
      obtain ⟨front, back, hes, ⟨c, rfl, -, k, hread⟩, hback⟩ := h
      obtain rfl : back = [] := hback
      rcases scanLevels_backingStore hread with ⟨l, rfl, hl⟩ | ⟨mark, rfl, hc⟩
      · exact .layer hes (attributes_ne_nil_of_layer hl) (load_of_scanLevels rfl hn hl)
          (ih (Nat.le_of_succ_le hn) (linkRead_of_layer hl))
      · exact .mark hes hc

/-- **The chain of a loaded disk is that of its element.** -/
theorem Content.backs_of_load {d : Disk} (h : (Content.group .disk).load o e = .ok d) :
    Backs o e d.backingStore := by
  obtain ⟨-, k, hread⟩ := Content.load_eq_ok_iff.mp h
  rw [Content.readRoot_eq_scan] at hread
  obtain ⟨n, hn⟩ := Nat.exists_eq_add_of_le' (Nat.le_max_right o.maxDepth 1)
  nth_rewrite 2 [hn] at hread
  exact backs_of_linkRead (by omega) (linkRead_of_disk hread)

/-- **A backing chain is read in full or not at all.** The chain of a loaded disk has a link
for each element `backingStore` on the way down, and there is no other such element beside
them: each layer is what its element loads to, and each mark stands for an element with nothing
in it. So the number of images is that of the elements with attributes, the chain ends with a
mark if the innermost element is bare, and it is open if the last layer has no such element
inside. With an element on the way down that is neither a layer nor bare, nothing is loaded. -/
theorem Content.load_backing_chain (o : LoadOptions) (e : Element) :
    let path := e.descent "backingStore"
    (∀ d, (Content.group .disk).load o e = .ok d →
      path.Forall₂ (LinkOf o) d.links ∧
      (∀ c ∈ e :: path, (c.childElements.filter (·.name == "backingStore")).length ≤ 1) ∧
      d.backingDepth = path.countP (·.attributes ≠ []) ∧
      (d.ending.isSome = true ↔ ∃ c, path.getLast? = some c ∧ c.IsBare) ∧
      (d.ending = none ↔
        ((path.filter (·.attributes ≠ [])).getLastD e).child? "backingStore" = none)) ∧
    ∀ c ∈ path, ¬c.IsBare → (∀ l, (Content.group .backingLayer).load o c ≠ .ok l) →
      ∃ err, (Content.group .disk).load o e = .error err := by
  intro path
  refine ⟨fun d hd => ?_, fun c hc hfull hdefective => ?_⟩
  · have hbacks := Content.backs_of_load hd
    exact ⟨hbacks.links, hbacks.single, hbacks.depth, hbacks.isSome_ending,
      hbacks.ending_eq_none⟩
  · cases hload : (Content.group .disk).load o e with
    | error err => exact ⟨err, rfl⟩
    | ok d =>
      have hlinks := (Content.backs_of_load hload).links
      obtain ⟨i, hi, rfl⟩ := List.mem_iff_getElem.mp hc
      have hlink := hlinks.get hi (hlinks.length_eq ▸ hi)
      rcases hb : ((d.backingStore.map BackingStore.links).getD []).get
          ⟨i, hlinks.length_eq ▸ hi⟩ with l | mark
      · rw [hb] at hlink
        exact absurd hlink.2 (hdefective l)
      · rw [hb] at hlink
        exact absurd hlink hfull

/-- Two images and the mark below them; with an unknown type in the lower image the chain is
not cut above it. -/
theorem Content.load_backing_chain_two :
    let mark : Element := { name := "backingStore", children := [.text "\n"] }
    let lower (kind : String) : Element := {
      name := "backingStore", attributes := [("type", kind)], children := [.element mark] }
    let upper (kind : String) : Element := {
      name := "backingStore", attributes := [("type", "file")], children := [.element (lower kind)] }
    let disk (kind : String) : Element := {
      name := "disk", attributes := [("type", "file")], children := [
        .element (upper kind), .element { name := "target", attributes := [("dev", "vda")] }] }
    let o : LoadOptions := { maxDepth := 4 }
    (∃ d, (Content.group .disk).load o (disk "block") = .ok d ∧ d.backingDepth = 2 ∧
      d.ending.isSome = true) ∧
    ∃ err, (Content.group .disk).load o (disk "tape") = .error err := by
  intro mark lower upper disk o
  constructor
  · have hload : (Content.group .disk).load o (disk "block") = .ok {
        target := { dev := "vda" }
        backingStore := some (.layer {
          backingStore := some (.layer { kind := .block, backingStore := some (.done {}) }) }) } := by
      decide
    obtain ⟨-, -, hdepth, hending, -⟩ := (Content.load_backing_chain o (disk "block")).1 _ hload
    exact ⟨_, hload, hdepth.trans (by decide), hending.mpr ⟨mark, by decide, by decide⟩⟩
  · have hlower : (Content.group .backingLayer).load o (lower "tape") =
        .error (.invalidValue "EDiskType" "tape") := by
      decide
    refine (Content.load_backing_chain o (disk "tape")).2 (lower "tape") (by decide) (by decide) ?_
    rw [hlower]
    exact fun l hl => nomatch hl

end Loading

end Schema

end GuestXml
