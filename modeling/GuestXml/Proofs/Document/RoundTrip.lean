import GuestXml.Proofs.Reading.Agreement
import GuestXml.Proofs.RoundTrip.Reread
import GuestXml.Proofs.RoundTrip.Resave

/-!
# What was saved is loaded again, and what was loaded can be saved

A value that can be written into an empty element is loaded from it, with every element
below it counted, whatever the options are, as long as they admit the height of the element
(`Content.load_of_writeInto`).

A value that was loaded can be saved, and the saved tree has as many elements as were
consumed. It comes back under the same options, so that saving is stable from then on
(`Content.save_of_readRoot`).
-/

namespace GuestXml.Schema

open Xml (Element)

/-- What is written into an element without attributes and content is all it has. -/
theorem Fragment.append_toElement {m : Fragment} (h : (m.attributes.map (·.1)).Nodup)
    {dst : Element} (hattributes : dst.attributes = []) (hchildren : dst.children = []) :
    dst.append (m.toElement dst.name) = m.toElement dst.name := by
  rw [append_toElement_eq_addTo h]
  simp [toElement, addTo, hattributes, hchildren]

theorem Content.writeInto_eq_toElement_iff {t : Content} {v : t.Carrier} {dst dst' : Element}
    (hattributes : dst.attributes = []) (hchildren : dst.children = []) :
    t.writeInto v dst = .ok dst' ↔ ∃ m, t.emit v = some m ∧ dst' = m.toElement dst.name := by
  rw [Content.writeInto_eq_ok_iff]
  constructor
  · rintro ⟨m, hm, rfl⟩
    exact ⟨m, hm, Fragment.append_toElement (emitLevels_attributes hm) hattributes hchildren⟩
  · rintro ⟨m, hm, rfl⟩
    exact ⟨m, hm,
      (Fragment.append_toElement (emitLevels_attributes hm) hattributes hchildren).symm⟩

/-- What was emitted is read back with the count of all elements below. -/
theorem Content.readRoot_toElement {t : Content} {v : t.Carrier} {m : Fragment}
    (hm : t.emit v = some m) (o : LoadOptions) (name : String)
    (hheight : (m.toElement name).height ≤ max o.maxDepth 1) :
    t.readRoot o (m.toElement name) = .ok (v, (m.toElement name).descendants) := by
  rw [Content.readRoot_eq_scan]
  exact rereads_levels o.denyUnknown (max o.maxDepth 1) (t.levels v) (max o.maxDepth 1) t v m name
    hm hheight

theorem Content.loadCounted_of_readRoot {t : Content} {o : LoadOptions} {root : Element}
    {v : t.Carrier} {c : Nat} (htag : ∀ tag ∈ t.tag?, root.name = tag)
    (h : t.readRoot o root = .ok (v, c)) : t.loadCounted o root = .ok (v, c) := by
  have hnone := tagMismatch?_eq_none_iff.mpr htag
  simp only [Content.loadCounted, hnone, h]

/-- **Round trip.** A value that is written into an empty element, which carries the tag of
the type if there is one, is loaded from that element again, whether unknown children are
denied or not. All elements below it are consumed. -/
theorem Content.load_of_writeInto {t : Content} {v : t.Carrier} {dst dst' : Element}
    {o : LoadOptions} (hattributes : dst.attributes = []) (hchildren : dst.children = [])
    (htag : ∀ tag ∈ t.tag?, dst.name = tag) (hwrite : t.writeInto v dst = .ok dst')
    (hdepth : dst'.height ≤ o.maxDepth) :
    t.load o dst' = .ok v ∧ t.readRoot o dst' = .ok (v, dst'.descendants) := by
  obtain ⟨m, hm, rfl⟩ :=
    (Content.writeInto_eq_toElement_iff hattributes hchildren).mp hwrite
  have hread := Content.readRoot_toElement hm o dst.name
    (Nat.le_trans hdepth (Nat.le_max_left _ _))
  refine ⟨?_, hread⟩
  have hcounted : t.loadCounted o (m.toElement dst.name) = _ :=
    Content.loadCounted_of_readRoot htag hread
  rw [Content.load, hcounted]
  rfl

/-- A backing chain of two images comes back with all its elements. -/
theorem Content.load_of_writeInto_chain :
    let chain : BackingStore :=
      .layer { kind := .file, source := some (.file { file := "base.img" }),
               backingStore := some (.layer { kind := .block,
                                              backingStore := some (.done {}) }) }
    let e : Element :=
      { name := "backingStore", attributes := [("type", "file")],
        children := [
          .element { name := "source", attributes := [("file", "base.img")] },
          .element
            { name := "backingStore", attributes := [("type", "block")],
              children := [.element { name := "backingStore" }] }] }
    Content.load (.choice .backingStore) { maxDepth := 3, denyUnknown := true } e = .ok chain ∧
      Content.readRoot (.choice .backingStore) { maxDepth := 3, denyUnknown := true } e =
        .ok (chain, 3) := by
  intro chain e
  have hwrite : Content.writeInto (.choice .backingStore) chain { name := "backingStore" } =
      .ok e := by decide +kernel
  exact Content.load_of_writeInto rfl rfl (by simp [Content.tag?]) hwrite (by decide)

/-! ### Saving what was loaded -/

/-- The tree that holds a saved value: the child that was added if the type has a tag, and
otherwise the parent itself. -/
def Content.savedTree? (t : Content) (parent : Element) : Option Element :=
  match t.tag? with
  | some _ => parent.childElements.getLast?
  | none => some parent

theorem Content.save_of_emit {t : Content} {v : t.Carrier} {m : Fragment}
    (hm : t.emit v = some m) (name : String) :
    ∃ parent, t.save v { name } = .ok parent ∧
      t.savedTree? parent = some (m.toElement (t.tag?.getD name)) := by
  have hwrite (tag : String) : t.writeInto v { name := tag } = .ok (m.toElement tag) :=
    (Content.writeInto_eq_toElement_iff rfl rfl).mpr ⟨m, hm, rfl⟩
  unfold Content.save Content.savedTree? Content.toElement
  cases t.tag? with
  | none => exact ⟨m.toElement name, hwrite name, rfl⟩
  | some tag =>
    refine ⟨({ name } : Element).pushElement (m.toElement tag), ?_, ?_⟩
    · simp only [hwrite]
      rfl
    · simp [Element.childElements, Element.pushElement]

/-- **Resaving.** A value that was read from any element, with a count of the elements
consumed, can be saved into an empty parent. The saved tree has exactly that many elements
below its root and is no higher than the limit on nesting; it is loaded under the same
options as the same value with the same count, and saving what is loaded from it gives the
same tree once more. -/
theorem Content.save_of_readRoot {t : Content} {o : LoadOptions} {e : Element} {v : t.Carrier}
    {c : Nat} (h : t.readRoot o e = .ok (v, c)) (name : String) :
    ∃ parent saved, t.save v { name } = .ok parent ∧ t.savedTree? parent = some saved ∧
      saved.descendants = c ∧ saved.height ≤ max o.maxDepth 1 ∧
      t.loadCounted o saved = .ok (v, c) ∧
      ∀ w, t.load o saved = .ok w → t.save w { name } = .ok parent := by
  rw [Content.readRoot_eq_scan] at h
  obtain ⟨m, hm, rfl, hheights⟩ := resaves_levels _ _ _ t e v c h
  obtain ⟨parent, hsave, hsaved⟩ := Content.save_of_emit hm name
  have hheight := m.height_toElement_le (t.tag?.getD name) (by omega) hheights
  have hdescendants : (m.toElement (t.tag?.getD name)).descendants = Element.sizes m.elements := by
    rw [Element.descendants_eq, m.childElements_toElement]
  have htag : ∀ tag ∈ t.tag?, (m.toElement (t.tag?.getD name)).name = tag := by
    intro tag htag
    simp [Option.mem_def.mp htag]
  have hread := Content.loadCounted_of_readRoot htag (Content.readRoot_toElement hm o _ hheight)
  rw [hdescendants] at hread
  refine ⟨parent, m.toElement (t.tag?.getD name), hsave, hsaved, hdescendants, hheight, hread, ?_⟩
  intro w hw
  rw [Content.load, hread] at hw
  obtain rfl := Except.ok.inj hw
  exact hsave

/-- A filter with children that no member takes: they are gone after saving, and the rule is
still there. -/
theorem Content.save_of_readRoot_filter :
    let junk : Xml.Node := .element { name := "junk" }
    let rule : Xml.Node := .element
      { name := "rule", attributes := [("action", " accept "), ("direction", "in")],
        children := [junk] }
    let e : Element :=
      { name := "filter", attributes := [("name", "clean")], children := [rule, junk] }
    let v : Filter :=
      { name := ⟨"clean"⟩, entries := [.rule { action := .accept, direction := .inbound }] }
    let t : Content := .series .filter
    let o : LoadOptions := { maxDepth := 3 }
    t.readRoot o e = .ok (v, 1) ∧
      ∃ parent saved, t.save v { name := "filters" } = .ok parent ∧
        t.savedTree? parent = some saved ∧ saved.descendants = 1 ∧
        saved.height ≤ max o.maxDepth 1 ∧ t.loadCounted o saved = .ok (v, 1) ∧
        ∀ w, t.load o saved = .ok w → t.save w { name := "filters" } = .ok parent := by
  intro junk rule e v t o
  have hread : t.readRoot o e = .ok (v, 1) := by decide +kernel
  exact ⟨hread, Content.save_of_readRoot hread "filters"⟩

end GuestXml.Schema
