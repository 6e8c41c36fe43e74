import GuestXml.Command.Document
import GuestXml.Proofs.Document.Text
import GuestXml.Proofs.Xml.Depth

/-!
# Commands agree on a document

Checking, formatting and showing a document begin with loading it. What was loaded can be
saved, so that none of the three fails where another succeeds; and what formatting writes,
with the line break at its end, is a document of the same kind under the same options,
although blank strings may not have come through. A kind need not be told, since the tag of
the root element tells the only kind that a document can be loaded as: `commands_agree`.

Formatting a text a second time may still change it, and a third time never does
(`format_settles`).

The agreement ends where no allocation holds what is written (`fitsMemory`). There formatting
breaks off, while checking and showing succeed as before (`format_aborts_wide_indent`).
-/

namespace GuestXml.Xml.Document

open Element (written)

/-- A written tree is read in its normal form with a line break behind it, too. -/
theorem parse_written_lineBreak (indent? : Option Nat) {maxDepth : Nat} {e : Element}
    (hnamed : e.wellNamed = true) (hdepth : e.height ≤ max maxDepth 1) :
    parse maxDepth (String.ofList (written indent? 0 e) ++ "\n") = .ok e.normal := by
  have hread := parseFrom_written (max maxDepth 1) indent? e 0 {} ⟨[], some e.normal⟩ ['\n'] hnamed
    (by simpa using hdepth) rfl
  have hbreak : Event.next? ['\n'] = .ok (some (.text ['\n'], [])) := by decide
  have hstep : Progress.step (max maxDepth 1) ⟨[], some e.normal⟩ (.text ['\n']) =
      .ok ⟨[], some e.normal⟩ := rfl
  rw [parseFrom_of_next? hbreak hstep, parseFrom_nil] at hread
  obtain ⟨r, hr⟩ := written_eq_cons indent? 0 e
  rw [parse, String.toList_append, String.toList_ofList]
  rw [hr] at hread ⊢
  exact hread

theorem eq_of_parse_of_le {a b : Nat} (hab : a ≤ b) {xml : String} {root root' : Element}
    (h : parse a xml = .ok root) (h' : parse b xml = .ok root') : root = root' := by
  rcases (parse_limit hab xml).1 with hsame | hdeep
  · exact Except.ok.inj (h.symm.trans (hsame.trans h'))
  · cases h.symm.trans hdeep

/-- A text has one root element, whatever the limits it is read under. -/
theorem eq_of_parse {a b : Nat} {xml : String} {root root' : Element}
    (h : parse a xml = .ok root) (h' : parse b xml = .ok root') : root = root' := by
  rcases Nat.le_total a b with hab | hba
  · exact eq_of_parse_of_le hab h h'
  · exact (eq_of_parse_of_le hba h' h).symm

end GuestXml.Xml.Document

namespace GuestXml.Command

open Schema (Content LoadOptions)
open Xml (Element)

/-! ### Kinds -/

namespace DocumentKind

/-- Different kinds have different tags, so that a tag tells a kind. -/
theorem ofRoot?_eq_some_iff {kind : DocumentKind} {root : String} :
    ofRoot? root = some kind ↔ kind.content.tag? = some root := by
  constructor
  · intro h
    have hfound := List.find?_some h
    exact eq_of_beq hfound
  · intro h
    cases kind with
    | domain =>
      obtain rfl : "domain" = root := Option.some.inj h
      decide
    | snapshot =>
      obtain rfl : "domainsnapshot" = root := Option.some.inj h
      decide
    | filter =>
      obtain rfl : "filter" = root := Option.some.inj h
      decide

theorem tag?_content (kind : DocumentKind) : kind.content.tag? ≠ none := by
  cases kind <;> exact Option.some_ne_none _

/-- The root of what loads as a kind tells that kind. -/
theorem ofRoot?_of_load {kind : DocumentKind} {o : LoadOptions} {root : Element}
    {v : kind.content.Carrier} (h : kind.content.load o root = .ok v) :
    ofRoot? root.name = some kind := by
  obtain ⟨tag, htag⟩ := Option.ne_none_iff_exists'.mp kind.tag?_content
  obtain ⟨hname, -⟩ := Content.load_eq_ok_iff.mp h
  rw [ofRoot?_eq_some_iff, htag, hname tag htag]

/-- A kind that the root tells is resolved to, unless another one is wanted. -/
theorem resolve_eq_ok_iff {wanted? : Option DocumentKind} {kind : DocumentKind} {root : String}
    (h : ofRoot? root = some kind) :
    resolve wanted? root = .ok kind ↔ ∀ wanted ∈ wanted?, wanted = kind := by
  unfold resolve
  rw [h]
  cases wanted? with
  | none => simp
  | some wanted => simp

end DocumentKind

/-! ### Loading -/

section Loading

variable {xml : String} {wanted? : Option DocumentKind} {o : LoadOptions} {d : Loaded}

/-- A text is loaded if it is well-formed and its root is loaded as the kind that its tag
tells, which is the one that is wanted if any is. -/
theorem load_eq_ok_iff :
    load xml wanted? o = .ok d ↔
      (∀ wanted ∈ wanted?, wanted = d.kind) ∧
        ∃ root, Xml.Document.parse o.maxDepth xml = .ok root ∧
          d.kind.content.load o root = .ok d.value := by
  obtain ⟨kind, value⟩ := d
  unfold load
  cases hparse : Xml.Document.parse o.maxDepth xml with
  | error e => simp [Except.mapError, bind, Except.bind]
  | ok root =>
    simp only [Except.mapError, bind, Except.bind, Except.ok.injEq, exists_eq_left']
    constructor
    · intro h
      cases hresolve : DocumentKind.resolve wanted? root.name with
      | error f =>
        rw [hresolve] at h
        cases h
      | ok found =>
        rw [hresolve] at h
        dsimp only at h
        cases hload : found.content.load o root with
        | error e =>
          rw [hload] at h
          cases h
        | ok v =>
          rw [hload] at h
          cases h
          exact ⟨(DocumentKind.resolve_eq_ok_iff (DocumentKind.ofRoot?_of_load hload)).mp hresolve,
            hload⟩
    · rintro ⟨hwanted, hload⟩
      rw [(DocumentKind.resolve_eq_ok_iff (DocumentKind.ofRoot?_of_load hload)).mpr hwanted]
      simp only [hload]
      rfl

/-- What is loaded without a kind is what is loaded with the right one. -/
theorem load_some_iff {kind : DocumentKind} :
    load xml (some kind) o = .ok d ↔ load xml none o = .ok d ∧ d.kind = kind := by
  rw [load_eq_ok_iff, load_eq_ok_iff]
  simp [eq_comm, and_comm]

/-- A text is of one kind only, whatever the options. -/
theorem kind_eq_of_load {wanted?' : Option DocumentKind} {o' : LoadOptions} {d' : Loaded}
    (h : load xml wanted? o = .ok d) (h' : load xml wanted?' o' = .ok d') : d.kind = d'.kind := by
  obtain ⟨-, root, hparse, hload⟩ := load_eq_ok_iff.mp h
  obtain ⟨-, root', hparse', hload'⟩ := load_eq_ok_iff.mp h'
  obtain rfl := Xml.Document.eq_of_parse hparse hparse'
  have hkind := DocumentKind.ofRoot?_of_load hload
  rw [DocumentKind.ofRoot?_of_load hload'] at hkind
  exact (Option.some.inj hkind).symm

end Loading

/-! ### Commands -/

section Commands

variable {xml : String} {wanted? : Option DocumentKind} {o : LoadOptions} {d : Loaded}

theorem Loaded.toElement_of_saveDocument {e : Element}
    (h : d.kind.content.saveDocument d.value = .ok e) : d.toElement = .ok e := by
  rw [Loaded.toElement, h]
  rfl

/-- What was loaded can be saved, and what is written of it is loaded as the same kind. Saved
again, that is the element without its blank texts, which has no further ones to lose. -/
theorem exists_toElement_of_load (h : load xml wanted? o = .ok d) :
    ∃ e w, d.toElement = .ok e ∧ Loaded.toElement ⟨d.kind, w⟩ = .ok e.normal ∧
      e.normal.normal = e.normal ∧
      ∀ indent, load (e.toXmlPretty indent ++ "\n") wanted? o = .ok ⟨d.kind, w⟩ := by
  obtain ⟨hwanted, root, -, hload⟩ := load_eq_ok_iff.mp h
  obtain ⟨saved, hsave, hheight⟩ := Content.saveDocument_of_load d.kind.tag?_content hload
  obtain ⟨hnamed, -, w, hw⟩ := Content.exists_saveDocument_normal hsave
  obtain ⟨-, hapart, -⟩ := Content.exists_saveDocument_normal hw
  have hagain : d.kind.content.load o saved.normal = .ok w :=
    Content.load_of_saveDocument hw (by rwa [Element.height_normal])
  refine ⟨saved, w, Loaded.toElement_of_saveDocument hsave, Loaded.toElement_of_saveDocument hw,
    Element.normal_of_not_isBlank _ hapart saved.isBlank_of_mem_normal, fun indent => ?_⟩
  exact load_eq_ok_iff.mpr ⟨hwanted, saved.normal,
    Xml.Document.parse_written_lineBreak (some indent) hnamed hheight, hagain⟩

theorem check_of_load (h : load xml wanted? o = .ok d) :
    check xml wanted? o = .ok ("ok " ++ d.kind.name) := by
  rw [check, h]
  rfl

theorem format_of_load (h : load xml wanted? o = .ok d) (out : OutputOptions) :
    format xml wanted? o out = d.toXml out.indent := by
  rw [format, h]
  rfl

theorem exists_showJson_of_load (h : load xml wanted? o = .ok d) (out : OutputOptions) :
    ∃ json, showJson xml wanted? o out = .ok json := by
  rw [showJson, h]
  exact ⟨_, rfl⟩

/-- Once there is an element, writing it depends on memory only. -/
theorem Loaded.toXml_of_toElement {e : Element} (h : d.toElement = .ok e) (indent : Nat) :
    d.toXml indent =
      if fitsMemory indent e then .ok (e.toXmlPretty indent ++ "\n") else .error .aborted := by
  rw [Loaded.toXml, h]
  rfl

theorem Loaded.toXml_eq_ok_iff {e : Element} (h : d.toElement = .ok e) {indent : Nat}
    {text : String} :
    d.toXml indent = .ok text ↔
      fitsMemory indent e = true ∧ e.toXmlPretty indent ++ "\n" = text := by
  rw [Loaded.toXml_of_toElement h]
  cases fitsMemory indent e <;> simp

/-- What is written was loaded, and is loaded as the same kind. -/
theorem exists_load_of_format {out : OutputOptions} {text : String}
    (h : format xml wanted? o out = .ok text) :
    ∃ d w, load xml wanted? o = .ok d ∧ load text wanted? o = .ok ⟨d.kind, w⟩ := by
  cases hload : load xml wanted? o with
  | error f =>
    rw [format, hload] at h
    cases h
  | ok d =>
    obtain ⟨e, w, he, -, -, hagain⟩ := exists_toElement_of_load hload
    rw [format_of_load hload, Loaded.toXml_eq_ok_iff he] at h
    obtain ⟨-, rfl⟩ := h
    exact ⟨d, w, rfl, hagain out.indent⟩

/-- Formatting settles: from the second time on the text has no blank texts to lose, so that
formatting it once more changes nothing. -/
theorem format_settles {out : OutputOptions} {text text' : String}
    (h : format xml wanted? o out = .ok text) (h' : format text wanted? o out = .ok text') :
    format text' wanted? o out = .ok text' := by
  obtain ⟨d, -, hload, -⟩ := exists_load_of_format h
  obtain ⟨e, w, he, hw, hnormal, hagain⟩ := exists_toElement_of_load hload
  rw [format_of_load hload, Loaded.toXml_eq_ok_iff he] at h
  obtain ⟨-, rfl⟩ := h
  have hload' := hagain out.indent
  rw [format_of_load hload', Loaded.toXml_eq_ok_iff hw] at h'
  obtain ⟨hfits, rfl⟩ := h'
  obtain ⟨e', w', he', hw', -, hagain'⟩ := exists_toElement_of_load hload'
  obtain rfl : e.normal = e' := Except.ok.inj (hw.symm.trans he')
  rw [hnormal] at hw'
  rw [format_of_load (hagain' out.indent), Loaded.toXml_eq_ok_iff hw']
  exact ⟨hfits, rfl⟩

/-- **Commands agree.** All three fail as loading fails, or checking and showing succeed. Then
formatting succeeds if memory holds what is written, and the text that is written passes the
check as a document of the same kind; otherwise formatting breaks off. To load a text as a
kind is to load it and find that kind, and no text is of two kinds. -/
theorem commands_agree (xml : String) (wanted? : Option DocumentKind) (o : LoadOptions)
    (out : OutputOptions) :
    ((∃ f, check xml wanted? o = .error f ∧ format xml wanted? o out = .error (.failed f) ∧
        showJson xml wanted? o out = .error f) ∨
      ∃ d e json, load xml wanted? o = .ok d ∧ d.toElement = .ok e ∧
        check xml wanted? o = .ok ("ok " ++ d.kind.name) ∧
        showJson xml wanted? o out = .ok json ∧
        (fitsMemory out.indent e = true → ∃ text, format xml wanted? o out = .ok text ∧
          check text wanted? o = .ok ("ok " ++ d.kind.name)) ∧
        (fitsMemory out.indent e = false → format xml wanted? o out = .error .aborted)) ∧
      (∀ kind d, load xml (some kind) o = .ok d ↔ load xml none o = .ok d ∧ d.kind = kind) ∧
      ∀ kind kind' o' d d', load xml (some kind) o = .ok d → load xml (some kind') o' = .ok d' →
        kind = kind' := by
  refine ⟨?_, fun kind d => load_some_iff, fun kind kind' o' d d' h h' => ?_⟩
  · cases hload : load xml wanted? o with
    | error f =>
      refine .inl ⟨f, ?_, ?_, ?_⟩
      · rw [check, hload]
        rfl
      · rw [format, hload]
        rfl
      · rw [showJson, hload]
        rfl
    | ok d =>
      obtain ⟨e, w, he, -, -, hagain⟩ := exists_toElement_of_load hload
      obtain ⟨json, hjson⟩ := exists_showJson_of_load hload out
      have hformat := (format_of_load hload out).trans (Loaded.toXml_of_toElement he out.indent)
      refine .inr
        ⟨d, e, json, rfl, he, check_of_load hload, hjson, fun hfits => ?_, fun hfits => ?_⟩
      · have hcheck := check_of_load (hagain out.indent)
        rw [hfits] at hformat
        exact ⟨_, hformat, hcheck⟩
      · rw [hfits] at hformat
        exact hformat
  · have hkind := kind_eq_of_load h h'
    rw [(load_some_iff.mp h).2, (load_some_iff.mp h').2] at hkind
    exact hkind

/-- A snapshot with a padded name, on no more levels than it takes, passes all three commands,
and is no filter. -/
theorem commands_agree_snapshot :
    let e : Element :=
      { name := "domainsnapshot",
        children := [.element { name := "name", children := [.text " nightly "] }] }
    let o : LoadOptions := { maxDepth := 2, denyUnknown := true }
    (∃ text json, check e.toXml none o = .ok "ok snapshot" ∧
        format e.toXml none o {} = .ok text ∧ showJson e.toXml none o {} = .ok json ∧
        check text none o = .ok "ok snapshot") ∧
      (∃ d, load e.toXml (some .snapshot) o = .ok d) ∧
      ∀ o' d, load e.toXml (some .filter) o' ≠ .ok d := by
  intro e o
  obtain ⟨hcommands, hkind, hone⟩ := commands_agree e.toXml none o {}
  let v : DomainSnapshot := { name := some " nightly " }
  have hv : (DocumentKind.content .snapshot).load o e = .ok v := by decide
  have hload : load e.toXml none o = .ok ⟨.snapshot, v⟩ :=
    load_eq_ok_iff.mpr ⟨nofun, e, Xml.Document.parse_written none (by decide) (by decide), hv⟩
  have he : Loaded.toElement ⟨.snapshot, v⟩ = .ok e := by decide
  have hsnapshot := (hkind .snapshot _).mpr ⟨hload, rfl⟩
  refine ⟨?_, ⟨_, hsnapshot⟩, fun o' d hfilter => ?_⟩
  · rcases hcommands with ⟨f, hfail, -⟩ | ⟨d, e', json, hd, he', hcheck, hjson, hfits, -⟩
    · cases (check_of_load hload).symm.trans hfail
    · cases hload.symm.trans hd
      cases he.symm.trans he'
      obtain ⟨text, hformat, hagain⟩ := hfits (by decide +kernel)
      exact ⟨text, json, hcheck, hformat, hjson, hagain⟩
  · cases hone _ _ o' _ _ hsnapshot hfilter

/-- A filter with one rule passes the check and is shown, but formatting it breaks off if a
level of nesting takes as many blanks as no allocation holds. -/
theorem format_aborts_wide_indent :
    let e : Element :=
      { name := "filter", attributes := [("name", "x")],
        children := [.element
          { name := "rule", attributes := [("action", "drop"), ("direction", "in")] }] }
    let out : OutputOptions := { indent := 9223372036854775808 }
    check e.toXml none {} = .ok "ok filter" ∧ (∃ json, showJson e.toXml none {} out = .ok json) ∧
      format e.toXml none {} out = .error .aborted := by
  intro e out
  let v : Filter := { name := ⟨"x"⟩, entries := [.rule { action := .drop, direction := .inbound }] }
  have hv : (DocumentKind.content .filter).load {} e = .ok v := by decide
  have hload : load e.toXml none {} = .ok ⟨.filter, v⟩ :=
    load_eq_ok_iff.mpr ⟨nofun, e, Xml.Document.parse_written none (by decide) (by decide), hv⟩
  have he : Loaded.toElement ⟨.filter, v⟩ = .ok e := by decide
  refine ⟨check_of_load hload, exists_showJson_of_load hload out, ?_⟩
  rw [format_of_load hload, Loaded.toXml_of_toElement he]
  decide

end Commands

end GuestXml.Command
