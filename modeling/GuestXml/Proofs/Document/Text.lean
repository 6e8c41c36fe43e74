import GuestXml.Proofs.Document.RoundTrip
import GuestXml.Proofs.Machine.Build
import GuestXml.Proofs.Xml.RoundTrip

/-!
# Values through text

A value that is written as the text of a document and loaded from that text comes back as it
was, but for strings that are all blanks where they stand between tags: a reader of text
takes these for the space between elements, so the empty string comes back in their place
(`Content.ReturnsAs`). Nothing else is lost, whatever the strings are and however the text is
indented.

Loaded values and built domains can always be written, so all this holds of them:
`Content.return_through_text`.
-/

namespace GuestXml.Schema

open Xml (Element)

namespace Content

variable {t : Content} {v w : t.Carrier} {root : Element} {o : LoadOptions}

/-! ### Saved documents -/

theorem isName_tag (t : Content) : t.tag?.all Xml.isName = true := by
  cases t with
  | group g => cases g <;> decide
  | choice c => cases c <;> decide
  | series s => cases s <;> decide

theorem saveDocument_eq_ok_iff :
    t.saveDocument v = .ok root ↔
      ∃ tag m, t.tag? = some tag ∧ t.emit v = some m ∧ root = m.toElement tag := by
  unfold saveDocument
  cases t.tag? with
  | none => simp
  | some tag =>
    simp only [toElement, writeInto_eq_toElement_iff, Option.some.injEq]
    constructor
    · rintro ⟨m, hm, rfl⟩
      exact ⟨tag, m, rfl, hm, rfl⟩
    · rintro ⟨_, m, rfl, hm, rfl⟩
      exact ⟨m, hm, rfl⟩

theorem load_of_saveDocument (hsave : t.saveDocument v = .ok root)
    (hheight : root.height ≤ max o.maxDepth 1) : t.load o root = .ok v := by
  obtain ⟨tag, m, htag, hm, rfl⟩ := saveDocument_eq_ok_iff.mp hsave
  refine load_eq_ok_iff.mpr ⟨fun tag' htag' => ?_, _, readRoot_toElement hm o tag hheight⟩
  rw [htag] at htag'
  exact Option.some.inj htag'

/-- A saved document can be read again, and without its blank texts it is the document of a
value too. -/
theorem exists_saveDocument_normal (hsave : t.saveDocument v = .ok root) :
    root.wellNamed = true ∧ root.textsApart = true ∧
      ∃ w, t.saveDocument w = .ok root.normal := by
  obtain ⟨tag, m, htag, hm, rfl⟩ := saveDocument_eq_ok_iff.mp hsave
  obtain ⟨hproper, w, hw⟩ := t.clears_emit v m hm
  have hname := t.isName_tag
  rw [htag] at hname
  refine ⟨hproper.wellNamed_toElement (emitLevels_attributes hm) hname,
    hproper.textsApart_toElement tag, w, ?_⟩
  exact saveDocument_eq_ok_iff.mpr ⟨tag, m.normal, htag, hw, hproper.normal_toElement tag⟩

/-- A loaded value can be saved as a document. -/
theorem saveDocument_of_load {e : Element} (htag : t.tag? ≠ none) (hload : t.load o e = .ok v) :
    ∃ root, t.saveDocument v = .ok root ∧ root.height ≤ max o.maxDepth 1 := by
  obtain ⟨tag, htag⟩ := Option.ne_none_iff_exists'.mp htag
  obtain ⟨-, n, hread⟩ := load_eq_ok_iff.mp hload
  rw [readRoot_eq_scan] at hread
  obtain ⟨m, hm, -, hheights⟩ := resaves_levels _ _ _ t e v n hread
  exact ⟨m.toElement tag, saveDocument_eq_ok_iff.mpr ⟨tag, m, htag, hm, rfl⟩,
    m.height_toElement_le tag (by omega) hheights⟩

/-! ### Through text -/

/-- What comes back when the document of a value is written as text and loaded again. It is
the value whose document has the blank texts left out, and the same value exactly if there
are none. -/
structure ReturnsAs (t : Content) (v w : t.Carrier) (root : Element) : Prop where
  saved : t.saveDocument w = .ok root.normal
  eq_iff : w = v ↔ ∀ s ∈ root.texts, Text.isBlankText s = false
  ofXml_toXml : ∀ o : LoadOptions, root.height ≤ max o.maxDepth 1 →
    (do t.ofXml o (← t.toXml v)) = .ok w
  ofXml_toXmlPretty : ∀ o : LoadOptions, root.height ≤ max o.maxDepth 1 → ∀ indent,
    (do t.ofXml o (← t.toXmlPretty indent v)) = .ok w

theorem ofXml_written (hnamed : root.wellNamed = true) (hw : t.saveDocument w = .ok root.normal)
    (hheight : root.height ≤ max o.maxDepth 1) (indent? : Option Nat) :
    t.ofXml o (String.ofList (Element.written indent? 0 root)) = .ok w := by
  have hload := load_of_saveDocument hw (by rwa [Element.height_normal])
  rw [ofXml, Xml.Document.parse_written indent? hnamed hheight]
  exact hload

/-- Whatever is saved returns from its text. -/
theorem exists_returnsAs (hsave : t.saveDocument v = .ok root) : ∃ w, t.ReturnsAs v w root := by
  obtain ⟨hnamed, hapart, w, hw⟩ := exists_saveDocument_normal hsave
  refine ⟨w, hw, ?_, fun o hheight => ?_, fun o hheight indent => ?_⟩
  · rw [← Element.normal_eq_self_iff hapart]
    constructor
    · rintro rfl
      exact Except.ok.inj (hw.symm.trans hsave)
    · intro hnormal
      rw [hnormal] at hw
      have hroom : root.height ≤ max ({ maxDepth := root.height } : LoadOptions).maxDepth 1 :=
        Nat.le_max_left _ _
      exact Except.ok.inj ((load_of_saveDocument hw hroom).symm.trans
        (load_of_saveDocument hsave hroom))
  · rw [toXml, hsave]
    exact ofXml_written hnamed hw hheight none
  · rw [toXmlPretty, hsave]
    exact ofXml_written hnamed hw hheight (some indent)

/-- A built domain returns as it was unless its name is blank, or the name of its processor is
blank and not empty. -/
theorem exists_returnsAs_of_build {p : Machine.Plan} {d : Domain} (hid : p.id.isValid = true)
    (hbuild : p.build = .ok d) :
    ∃ root w, (Content.group .domain).saveDocument d = .ok root ∧
      (Content.group .domain).ReturnsAs d w root ∧
      (w = d ↔ Text.isBlankText p.name = false ∧
        ∀ s ∈ p.cpu.model, s = "" ∨ Text.isBlankText s = false) := by
  obtain ⟨m, hm, hsolid⟩ := Machine.Plan.forall_mem_texts_build hid hbuild
  have hsave : (Content.group .domain).saveDocument d = .ok (m.toElement "domain") :=
    saveDocument_eq_ok_iff.mpr ⟨"domain", m, rfl, hm, rfl⟩
  obtain ⟨w, hreturns⟩ := exists_returnsAs hsave
  rw [← m.texts_toElement "domain", ← hreturns.eq_iff] at hsolid
  exact ⟨_, w, hsave, hreturns, hsolid⟩

/-- **Through text.** A saved value returns from the compact and from every indented text of
its document, under every limit that admits the height of the document. A value that was
loaded can be saved, and its document is no higher than the limit it was loaded under. A
domain that was built from a plan with a proper identifier can be saved too. -/
theorem return_through_text (t : Content) :
    (∀ v root, t.saveDocument v = .ok root → ∃ w, t.ReturnsAs v w root) ∧
      (∀ o e v, t.tag? ≠ none → t.load o e = .ok v →
        ∃ root w, t.saveDocument v = .ok root ∧ root.height ≤ max o.maxDepth 1 ∧
          t.ReturnsAs v w root) ∧
      ∀ (p : Machine.Plan) d, p.id.isValid = true → p.build = .ok d →
        ∃ root w, (Content.group .domain).saveDocument d = .ok root ∧
          (Content.group .domain).ReturnsAs d w root ∧
          (w = d ↔ Text.isBlankText p.name = false ∧
            ∀ s ∈ p.cpu.model, s = "" ∨ Text.isBlankText s = false) := by
  refine ⟨fun v root hsave => exists_returnsAs hsave, fun o e v htag hload => ?_,
    fun p d hid hbuild => exists_returnsAs_of_build hid hbuild⟩
  obtain ⟨root, hsave, hheight⟩ := saveDocument_of_load htag hload
  obtain ⟨w, hreturns⟩ := exists_returnsAs hsave
  exact ⟨root, w, hsave, hheight, hreturns⟩

/-- A snapshot whose name is padded and looks like markup, the same snapshot after it was
loaded from an element with a child too many, and the domain of a plan with an odd name all
return as they were. -/
theorem return_through_text_padded :
    let t : Content := .group .domainSnapshot
    let name : Xml.Node := .element { name := "name", children := [.text " <a>&lt;]]> "] }
    let root : Element := { name := "domainsnapshot", children := [name] }
    let e : Element := { root with children := [name, .text " ", .element { name := "junk" }] }
    let v : DomainSnapshot := { name := some " <a>&lt;]]> " }
    let p : Machine.Plan :=
      { id := ⟨"00000000-0000-4000-8000-000000000000"⟩, name := "\t&", cpu := { model := some "" } }
    t.saveDocument v = .ok root ∧ t.ReturnsAs v v root ∧ t.load {} e = .ok v ∧
      root.height ≤ 256 ∧ ∃ d saved, p.build = .ok d ∧
        (Content.group .domain).saveDocument d = .ok saved ∧
        (Content.group .domain).ReturnsAs d d saved := by
  intro t name root e v p
  obtain ⟨hsaved, hloaded, hbuilt⟩ := return_through_text t
  have hsave : t.saveDocument v = .ok root := by decide +kernel
  have hload : t.load {} e = .ok v := by decide +kernel
  obtain ⟨w, hreturns⟩ := hsaved v root hsave
  obtain rfl : w = v := hreturns.eq_iff.mpr (by decide +kernel)
  obtain ⟨root', -, hroot, hheight, -⟩ := hloaded {} e v (by decide) hload
  obtain rfl := Except.ok.inj (hroot.symm.trans hsave)
  obtain ⟨d, hbuild⟩ : ∃ d, p.build = .ok d := ⟨_, rfl⟩
  obtain ⟨saved, w, hsavedAs, hreturns', hsame⟩ := hbuilt p d (by decide +kernel) hbuild
  obtain rfl : w = d := hsame.mpr ⟨by decide, by simp [p]⟩
  exact ⟨hsave, hreturns, hload, Nat.le_trans hheight (by decide), w, saved, hbuild, hsavedAs,
    hreturns'⟩

/-- A guest whose name is a space is built, and comes back as another guest. -/
theorem not_return_blank_name :
    let p : Machine.Plan := { id := ⟨"00000000-0000-4000-8000-000000000000"⟩, name := " " }
    ∃ d root w, p.id.isValid = true ∧ p.build = .ok d ∧
      (Content.group .domain).saveDocument d = .ok root ∧ w ≠ d ∧
      ∀ o : LoadOptions, root.height ≤ o.maxDepth →
        (do (Content.group .domain).ofXml o (← (Content.group .domain).toXml d)) = .ok w := by
  intro p
  have hid : p.id.isValid = true := by decide +kernel
  obtain ⟨d, hbuild⟩ : ∃ d, p.build = .ok d := ⟨_, rfl⟩
  obtain ⟨root, w, hsave, hreturns, hsame⟩ := exists_returnsAs_of_build hid hbuild
  refine ⟨d, root, w, hid, hbuild, hsave, ?_, fun o hheight => ?_⟩
  · intro heq
    have hname := (hsame.mp heq).1
    exact absurd hname (by decide)
  · exact hreturns.ofXml_toXml o (Nat.le_trans hheight (Nat.le_max_left _ _))

end Content

end GuestXml.Schema
