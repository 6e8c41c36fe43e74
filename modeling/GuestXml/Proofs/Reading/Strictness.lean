import GuestXml.Proofs.Reading.Steps
import GuestXml.Proofs.Xml.Tree

/-!
# Denying unknown children

A strict scan denies children that no member asks for, a lenient one skips them. What a scan
has consumed and what is left to it together never grow (`Scan.total`), and they shrink where
a child is skipped further down. So the two scans run in step until a skipped child is met
(`Agree`); there the strict one fails and the lenient one falls behind (`Part`), or the strict
one has to leave a child over and will fail at the end of the element (`Doom`).

The last case comes from choices alone. A strict scan may turn to a later alternative after
an earlier one met a skipped child, but in this schema such an alternative takes no children
(`Choice.separates_alternatives`), so that it cannot read the element to its end.
-/

namespace GuestXml.Schema

open Xml (Element)

/-- The same conditions, with unknown children denied. -/
def Site.strict (site : Site) : Site := { site with denyUnknown := true }

/-- The same conditions, with unknown children skipped. -/
def Site.lenient (site : Site) : Site := { site with denyUnknown := false }

/-- The number of elements that are consumed or left. -/
def Scan.total (s : Scan) : Nat :=
  s.consumed + Element.sizes s.rest

theorem Scan.total_ask (s : Scan) (name : String) : (s.ask name).total = s.total := by
  simp [total]

section Relations

variable {α : Type}

/-- Both scans do the same, and nothing is skipped. -/
structure Agree (s : Scan) (strict lenient : Except Error (α × Scan)) : Prop where
  eq : strict = lenient
  total : ∀ a s', strict = .ok (a, s') → s'.total = s.total
  rest : ∀ a s', strict = .ok (a, s') → s.rest = [] → s'.rest = []

/-- The strict scan fails at a child that the lenient scan skips. -/
structure Part (s : Scan) (strict lenient : Except Error (α × Scan)) : Prop where
  rest : s.rest ≠ []
  error : ∃ e, strict = .error e ∧ e.isFatal = false
  total : ∀ a s', lenient = .ok (a, s') → s'.total < s.total

/-- The strict scan cannot read the element to its end, and the lenient one does not consume
all of it. -/
structure Doom (s : Scan) (strict lenient : Except Error (α × Scan)) : Prop where
  rest : ∀ a s', strict = .ok (a, s') → s'.rest ≠ []
  error : ∀ e, strict = .error e → e.isFatal = false
  consumed : ∀ a s', lenient = .ok (a, s') → s'.consumed < s.total

/-- From one scan on, the strict and the lenient one run in step or part. -/
def InStepFrom (s : Scan) (strict lenient : Except Error (α × Scan)) : Prop :=
  Agree s strict lenient ∨ Part s strict lenient

/-- Strict and lenient scans run in step or part, wherever they start. -/
def InStep (strict lenient : ScanM α) : Prop :=
  ∀ s, InStepFrom s (strict s) (lenient s)

/-- Results for a whole element with a number of elements below it: they are the same and
count all of these, or the strict one is an error and the lenient one counts fewer. -/
def InStepAt (below : Nat) (strict lenient : Except Error (α × Nat)) : Prop :=
  (strict = lenient ∧ ∀ a n, strict = .ok (a, n) → n = below) ∨
    ((∃ e, strict = .error e ∧ e.isFatal = false) ∧ ∀ a n, lenient = .ok (a, n) → n < below)

end Relations

/-! ### Combining scans -/

section Combining

variable {α β : Type} {s : Scan} {strict lenient : Except Error (α × Scan)}

theorem Agree.error {e : Error} : Agree s (.error e : Except Error (α × Scan)) (.error e) :=
  ⟨rfl, fun _ _ h => (nomatch h), fun _ _ h => (nomatch h)⟩

theorem Agree.ok {s' : Scan} {a : α} (htotal : s'.total = s.total)
    (hrest : s.rest = [] → s'.rest = []) : Agree s (.ok (a, s')) (.ok (a, s')) := by
  refine ⟨rfl, fun a' s'' h => ?_, fun a' s'' h => ?_⟩
  · cases h
    exact htotal
  · cases h
    exact hrest

theorem Agree.map {strict lenient : ScanM α} (f : α → β) (h : Agree s (strict s) (lenient s)) :
    Agree s ((f <$> strict) s) ((f <$> lenient) s) := by
  cases hs : strict s with
  | error e =>
    rw [ScanM.map_of_error hs, ScanM.map_of_error (h.eq ▸ hs)]
    exact .error
  | ok p =>
    obtain ⟨a, s'⟩ := p
    rw [ScanM.map_of_ok hs, ScanM.map_of_ok (h.eq ▸ hs)]
    exact .ok (h.total a s' hs) (h.rest a s' hs)

theorem Doom.map {strict lenient : ScanM α} (f : α → β) (h : Doom s (strict s) (lenient s)) :
    Doom s ((f <$> strict) s) ((f <$> lenient) s) where
  rest := fun b s' hs' => by
    obtain ⟨a, ha, -⟩ := ScanM.map_eq_ok_iff.mp hs'
    exact h.rest a s' ha
  error := fun e he => by
    cases hs : strict s with
    | error e' =>
      rw [ScanM.map_of_error hs] at he
      cases he
      exact h.error _ hs
    | ok p =>
      rw [ScanM.map_of_ok (show strict s = .ok (p.1, p.2) from hs)] at he
      cases he
  consumed := fun b s' hs' => by
    obtain ⟨a, ha, -⟩ := ScanM.map_eq_ok_iff.mp hs'
    exact h.consumed a s' ha

theorem Part.doom (h : Part s strict lenient) : Doom s strict lenient := by
  obtain ⟨e, rfl, hfatal⟩ := h.error
  refine ⟨fun _ _ h' => (nomatch h'), fun e' he' => ?_, fun a s' hs' => ?_⟩
  · cases he'
    exact hfatal
  · have htotal := h.total a s' hs'
    unfold Scan.total at htotal ⊢
    omega

/-- The total never grows. -/
theorem InStepFrom.total_le (h : InStepFrom s strict lenient) {s' : Scan} {a : α}
    (hs' : lenient = .ok (a, s')) : s'.total ≤ s.total := by
  rcases h with h | h
  · exact Nat.le_of_eq (h.total a s' (h.eq.trans hs'))
  · exact Nat.le_of_lt (h.total a s' hs')

/-- Scans that agree run on in step; where they have parted, the strict one is over and the
lenient one does not catch up. -/
theorem InStepFrom.bind {strict lenient : ScanM α} {strict' lenient' : α → ScanM β}
    (h : InStepFrom s (strict s) (lenient s))
    (h' : ∀ a s', lenient s = .ok (a, s') → InStepFrom s' (strict' a s') (lenient' a s')) :
    InStepFrom s ((strict >>= strict') s) ((lenient >>= lenient') s) := by
  rcases h with hagree | hpart
  · cases hs : lenient s with
    | error e =>
      rw [ScanM.bind_of_error hs, ScanM.bind_of_error (hagree.eq.trans hs)]
      exact .inl .error
    | ok p =>
      obtain ⟨a, s'⟩ := p
      have hstrict := hagree.eq.trans hs
      rw [ScanM.bind_of_ok hs, ScanM.bind_of_ok hstrict]
      have htotal := hagree.total a s' hstrict
      have hrest := hagree.rest a s' hstrict
      rcases h' a s' hs with hagree' | hpart'
      · exact .inl ⟨hagree'.eq, fun b s'' hs'' => (hagree'.total b s'' hs'').trans htotal,
          fun b s'' hs'' hnil => hagree'.rest b s'' hs'' (hrest hnil)⟩
      · exact .inr ⟨fun hnil => hpart'.rest (hrest hnil), hpart'.error,
          fun b s'' hs'' => htotal ▸ hpart'.total b s'' hs''⟩
  · obtain ⟨e, he, hfatal⟩ := hpart.error
    refine .inr ⟨hpart.rest, ⟨e, ScanM.bind_of_error he, hfatal⟩, fun b s'' hs'' => ?_⟩
    obtain ⟨a, s', hs', hb⟩ := ScanM.bind_eq_ok_iff.mp hs''
    exact Nat.lt_of_le_of_lt ((h' a s' hs').total_le hb) (hpart.total a s' hs')

namespace InStep

/-- A scan that takes nothing. -/
theorem of_eq {scan : ScanM α} (h : ∀ s a s', scan s = .ok (a, s') →
    s'.total = s.total ∧ (s.rest = [] → s'.rest = [])) : InStep scan scan := by
  intro s
  cases hs : scan s with
  | error e => exact .inl .error
  | ok p =>
    obtain ⟨a, s'⟩ := p
    obtain ⟨htotal, hrest⟩ := h s a s' hs
    exact .inl (.ok htotal hrest)

theorem pure (a : α) : InStep (pure a) (pure a) :=
  of_eq fun s a' s' h => by
    cases h
    exact ⟨rfl, id⟩

theorem bind {strict lenient : ScanM α} {strict' lenient' : α → ScanM β}
    (h : InStep strict lenient) (h' : ∀ a, InStep (strict' a) (lenient' a)) :
    InStep (strict >>= strict') (lenient >>= lenient') :=
  fun s => (h s).bind fun a s' _ => h' a s'

theorem map (f : α → β) {strict lenient : ScanM α} (h : InStep strict lenient) :
    InStep (f <$> strict) (f <$> lenient) := by
  rw [map_eq_pure_bind, map_eq_pure_bind]
  exact h.bind fun a => .pure (f a)

theorem mapM {γ : Type} {strict lenient : γ → ScanM α} (h : ∀ c, InStep (strict c) (lenient c))
    (cs : List γ) : InStep (cs.mapM strict) (cs.mapM lenient) := by
  induction cs with
  | nil => exact .pure []
  | cons c cs ih =>
    rw [List.mapM_cons, List.mapM_cons]
    exact (h c).bind fun a => ih.bind fun as => .pure (a :: as)

end InStep

end Combining

/-! ### Children -/

section Children

variable {α β : Type} {site : Site} {strict lenient : Except Error (α × Nat)} {e : Element}

/-- The next child is consumed as a whole, or the scans part. -/
theorem InStepAt.scanChild (h : InStepAt e.descendants strict lenient) {s : Scan}
    {more : List Element} (hrest : s.rest = e :: more) :
    InStepFrom s (scanChild site.strict strict s) (scanChild site.lenient lenient s) := by
  have htotal (n : Nat) : ({ s with rest := s.rest.tail, consumed := s.consumed + n + 1 } :
      Scan).total + e.descendants = s.total + n := by
    simp only [Scan.total, hrest, List.tail_cons, Element.sizes_cons]
    omega
  have hnil : s.rest ≠ [] := by simp [hrest]
  by_cases hbelow : site.below = 0
  · simp only [Schema.scanChild, Site.strict, Site.lenient, hbelow, if_true]
    exact .inl .error
  · simp only [Schema.scanChild, Site.strict, Site.lenient, hbelow, if_false]
    rcases h with ⟨rfl, hall⟩ | ⟨⟨err, rfl, hfatal⟩, hfewer⟩
    · cases strict with
      | error err => exact .inl .error
      | ok p =>
        obtain ⟨a, n⟩ := p
        obtain rfl := hall a n rfl
        exact .inl (.ok (Nat.add_right_cancel (htotal e.descendants)) fun h => absurd h hnil)
    · refine .inr ⟨hnil, ⟨err, rfl, hfatal⟩, fun a s' hs' => ?_⟩
      cases lenient with
      | error err' => cases hs'
      | ok p =>
        obtain ⟨a', n⟩ := p
        cases hs'
        have hlt := hfewer a' n rfl
        have hn := htotal n
        show Scan.total { s with rest := s.rest.tail, consumed := s.consumed + n + 1 } < s.total
        omega

theorem inStep_scanNext? (name : String) : InStep (scanNext? name) (scanNext? name) :=
  .of_eq fun s e? s' h => by
    cases h
    exact ⟨s.total_ask name, fun hnil => by rw [s.rest_ask, hnil]⟩

theorem inStep_scanAll (name : String) : InStep (scanAll name) (scanAll name) :=
  .of_eq fun s es s' h => by
    cases h
    exact ⟨s.total_ask name, fun hnil => by rw [s.rest_ask, hnil]⟩

theorem inStep_scanRequired (site : Site) (name : String) :
    InStep (scanRequired site.strict name) (scanRequired site.lenient name) :=
  (inStep_scanNext? name).bind fun e? => by
    cases e? with
    | none => exact .of_eq fun s e s' h => nomatch h
    | some e => exact .pure e

theorem inStep_scanMin (site : Site) (name : String) (min found : Nat) :
    InStep (scanMin site.strict name min found) (scanMin site.lenient name min found) := by
  unfold scanMin
  split
  · exact .of_eq fun s e s' h => nomatch h
  · exact .pure ()

section Named

variable {strict lenient : Element → Except Error (α × Nat)}
  (h : ∀ e, InStepAt e.descendants (strict e) (lenient e))

include h

theorem inStep_children {es more : List Element} {s : Scan} (hrest : s.rest = es ++ more) :
    InStepFrom s (es.mapM (fun e => scanChild site.strict (strict e)) s)
      (es.mapM (fun e => scanChild site.lenient (lenient e)) s) := by
  induction es generalizing s with
  | nil => exact InStep.pure [] s
  | cons e es ih =>
    rw [List.mapM_cons, List.mapM_cons]
    refine ((h e).scanChild hrest).bind fun a s' hs' => ?_
    refine InStepFrom.bind (ih ?_) fun as s'' _ => InStep.pure (a :: as) s''
    obtain ⟨-, n, -, rfl⟩ := scanChild_eq_ok_iff.mp hs'
    show s.rest.tail = es ++ more
    rw [hrest]
    rfl

theorem inStep_required (name : String) :
    InStep (do scanChild site.strict (strict (← scanRequired site.strict name)))
      (do scanChild site.lenient (lenient (← scanRequired site.lenient name))) := by
  intro s
  refine InStepFrom.bind ?_ fun e s' hs' => ?_
  · exact inStep_scanRequired site name s
  · obtain ⟨rfl, -, more, hrest⟩ := scanRequired_eq_ok hs'
    exact (h e).scanChild ((s.rest_ask name).trans hrest)

theorem inStep_optional (name : String) (f : α → β) (b : β) :
    InStep
      (do match ← scanNext? name with
          | some e => f <$> scanChild site.strict (strict e)
          | none => return b)
      (do match ← scanNext? name with
          | some e => f <$> scanChild site.lenient (lenient e)
          | none => return b) := by
  intro s
  refine InStepFrom.bind (inStep_scanNext? name s) fun e? s' hs' => ?_
  cases e? with
  | none => exact InStep.pure b s'
  | some e =>
    obtain ⟨rfl, -, more, hrest⟩ := scanNext?_eq_some hs'
    show InStepFrom _ ((f <$> scanChild site.strict (strict e)) _)
      ((f <$> scanChild site.lenient (lenient e)) _)
    rw [map_eq_pure_bind, map_eq_pure_bind]
    exact ((h e).scanChild ((s.rest_ask name).trans hrest)).bind fun a s'' _ =>
      InStep.pure (f a) s''

theorem inStep_many (name : String) (min : Nat) :
    InStep
      (do let values ← (← scanAll name).mapM fun e => scanChild site.strict (strict e)
          scanMin site.strict name min values.length
          return values)
      (do let values ← (← scanAll name).mapM fun e => scanChild site.lenient (lenient e)
          scanMin site.lenient name min values.length
          return values) := by
  intro s
  refine InStepFrom.bind (inStep_scanAll name s) fun es s' hs' => ?_
  obtain ⟨rfl, -, more, hrest⟩ := scanAll_eq_ok hs'
  refine (inStep_children h ((s.rest_ask name).trans hrest)).bind fun values s'' _ => ?_
  exact ((inStep_scanMin site name min values.length).bind fun _ => .pure values) s''

end Named

end Children

/-! ### Elements -/

section Elements

variable {α : Type} (site : Site) {s : Scan}

/-- A strict scan leaves no child over. -/
theorem scanEnd_strict (h : s.rest ≠ []) :
    ∃ err, scanEnd site.strict s = .error err ∧ err.isFatal = false := by
  cases hfault : s.rest.findSome? (s.fault? site.strict) with
  | some err =>
    obtain ⟨e, -, he⟩ := List.exists_of_findSome?_eq_some hfault
    exact ⟨err, by simp [scanEnd, hfault], isFatal_fault? he⟩
  | none =>
    obtain ⟨e, more, hrest⟩ := List.exists_cons_of_ne_nil h
    have he := List.findSome?_eq_none_iff.mp hfault e (by simp [hrest])
    simp only [Scan.fault?, Site.strict, if_true] at he
    split at he <;> cases he

theorem scanElement_strict {scan : ScanM α} {a : α}
    (h : scan { rest := site.element.childElements } = .ok (a, s)) (hrest : s.rest ≠ []) :
    ∃ err, scanElement site.strict scan = .error err ∧ err.isFatal = false := by
  obtain ⟨err, herr, hfatal⟩ := scanEnd_strict site hrest
  have hscan : scanElement site.strict scan = _ := scanElement_of_ok h
  exact ⟨err, by rw [hscan, herr]; rfl, hfatal⟩

theorem scanElement_of_rest_nil {scan : ScanM α} {a : α}
    (h : scan { rest := site.element.childElements } = .ok (a, s)) (hrest : s.rest = []) :
    scanElement site scan = .ok (a, s.consumed) :=
  scanElement_eq_ok_iff.mpr ⟨s, h, by simp [hrest], rfl⟩

/-- At the end of an element the scans have agreed and left nothing over, or the strict one
fails. -/
theorem scanElement_inStepAt {strict lenient : ScanM α}
    (h : ∀ s, Agree s (strict s) (lenient s) ∨ Doom s (strict s) (lenient s)) :
    InStepAt site.element.descendants (scanElement site.strict strict)
      (scanElement site.lenient lenient) := by
  let start : Scan := { rest := site.element.childElements }
  have htotal : start.total = site.element.descendants := by
    rw [Element.descendants_eq]
    exact Nat.zero_add _
  rcases h start with hagree | hdoom
  · cases hs : strict start with
    | error e =>
      have hstrict : scanElement site.strict strict = .error e := scanElement_of_error hs
      have hlenient : scanElement site.lenient lenient = .error e :=
        scanElement_of_error (hagree.eq ▸ hs)
      rw [hstrict, hlenient]
      exact .inl ⟨rfl, fun a n h => nomatch h⟩
    | ok p =>
      obtain ⟨a, s'⟩ := p
      have hs' : lenient start = .ok (a, s') := hagree.eq ▸ hs
      have hconsumed : s'.consumed + Element.sizes s'.rest = site.element.descendants :=
        (hagree.total a s' hs).trans htotal
      by_cases hrest : s'.rest = []
      · rw [scanElement_of_rest_nil site.strict hs hrest,
          scanElement_of_rest_nil site.lenient hs' hrest]
        refine .inl ⟨rfl, fun a' n h => ?_⟩
        cases h
        rw [← hconsumed, hrest, Element.sizes_nil, Nat.add_zero]
      · refine .inr ⟨scanElement_strict site hs hrest, fun a' n h => ?_⟩
        obtain ⟨s'', hs'', -, rfl⟩ := scanElement_eq_ok_iff.mp h
        obtain ⟨-, rfl⟩ := Prod.mk.inj (Except.ok.inj (hs'.symm.trans hs''))
        have hpos := Element.sizes_pos hrest
        omega
  · refine .inr ⟨?_, fun a n h => ?_⟩
    · cases hs : strict start with
      | error e => exact ⟨e, scanElement_of_error hs, hdoom.error e hs⟩
      | ok p => exact scanElement_strict site hs (hdoom.rest p.1 p.2 hs)
    · obtain ⟨s', hs', -, rfl⟩ := scanElement_eq_ok_iff.mp h
      rw [← htotal]
      exact hdoom.consumed a s' hs'

end Elements

/-! ### Members -/

theorem Idle.agree {α : Type} {scan : ScanM α} (h : Idle scan) (s : Scan) :
    Agree s (scan s) (scan s) := by
  rcases h s with ⟨e, he, -⟩ | ⟨a, ha⟩
  · rw [he]
    exact .error
  · rw [ha]
    exact .ok rfl id

theorem Idle.inStep {α : Type} {scan : ScanM α} (h : Idle scan) : InStep scan scan :=
  fun s => .inl (h.agree s)

section Members

variable {site : Site} {child child' : (t : Content) → Element → Except Error (t.Carrier × Nat)}

/-- What a member does without children does not depend on how children are read. -/
theorem scanField_strict_eq {f : Field} (hf : f.childName? = none) :
    scanField site.strict child f = scanField site.lenient child' f := by
  cases f with
  | attr | optionalAttr | constant | text | optionalText | noContent => rfl
  | _ => exact nomatch hf

theorem scanTuple_idle {ms : List Member} (hms : childNames ms = []) :
    Idle (scanTuple site child ms) := by
  induction ms with
  | nil => exact .pure ()
  | cons m ms ih =>
    obtain ⟨hm, hms⟩ := childNames_cons_eq_nil_iff.mp hms
    exact (scanField_idle hm).bind fun v => (ih hms).bind fun vs => .pure (v, vs)

theorem scanTuple_strict_eq {ms : List Member} (hms : childNames ms = []) :
    scanTuple site.strict child ms = scanTuple site.lenient child' ms := by
  induction ms with
  | nil => rfl
  | cons m ms ih =>
    obtain ⟨hm, hms⟩ := childNames_cons_eq_nil_iff.mp hms
    rw [scanTuple, scanTuple, scanField_strict_eq hm, ih hms]

theorem scanAlternative_idle {a : Alternative} (ha : a.isChildless = true) :
    Idle (scanAlternative site child a) := by
  cases a with
  | group name g =>
    exact (scanTuple_idle (List.isEmpty_iff.mp ha)).bind fun vs => .pure (g.record.ofTuple vs)
  | element name tag t => exact nomatch ha

theorem scanAlternative_strict_eq {a : Alternative} (ha : a.isChildless = true) :
    scanAlternative site.strict child a = scanAlternative site.lenient child' a := by
  cases a with
  | group name g =>
    rw [scanAlternative, scanAlternative, scanGroup, scanGroup,
      scanTuple_strict_eq (List.isEmpty_iff.mp ha)]
  | element name tag t => exact nomatch ha

end Members

section Members

variable {site : Site} {strict lenient : (t : Content) → Element → Except Error (t.Carrier × Nat)}

theorem inStepAt_value (s : Scalar) (e : Element) :
    InStepAt e.descendants (scanValue site.strict s e) (scanValue site.lenient s e) :=
  scanElement_inStepAt (site.child e) fun s' =>
    ((Idle.decode s e.text).inStep s').imp id Part.doom

theorem inStepAt_flag (e : Element) :
    InStepAt e.descendants (scanFlag site.strict e) (scanFlag site.lenient e) :=
  scanElement_inStepAt (site.child e) fun s' => (InStep.pure () s').imp id Part.doom

variable (h : ∀ t e, InStepAt e.descendants (strict t e) (lenient t e))

include h

theorem scanField_inStep (f : Field) :
    InStep (scanField site.strict strict f) (scanField site.lenient lenient f) := by
  by_cases hf : f.childName? = none
  · rw [scanField_strict_eq hf]
    exact (scanField_idle hf).inStep
  · cases f with
    | valueElement name s => exact inStep_required (inStepAt_value s) name
    | optionalValueElement name s => exact inStep_optional (inStepAt_value s) name some none
    | valueElements name min s => exact inStep_many (inStepAt_value s) name min
    | flag name => exact inStep_optional inStepAt_flag name (fun _ => true) false
    | element name t => exact inStep_required (h t) name
    | optionalElement name t => exact inStep_optional (h t) name some none
    | elements name min t => exact inStep_many (h t) name min
    | _ => exact absurd rfl hf

theorem scanTuple_inStep (ms : List Member) :
    InStep (scanTuple site.strict strict ms) (scanTuple site.lenient lenient ms) := by
  induction ms with
  | nil => exact .pure ()
  | cons m ms ih =>
    exact (scanField_inStep h m.field).bind fun v => ih.bind fun vs => .pure (v, vs)

theorem scanGroup_inStep (g : Group) :
    InStep (scanGroup site.strict strict g) (scanGroup site.lenient lenient g) :=
  (scanTuple_inStep h g.record.members).bind fun vs => .pure (g.record.ofTuple vs)

theorem scanAlternative_inStep (a : Alternative) :
    InStep (scanAlternative site.strict strict a) (scanAlternative site.lenient lenient a) := by
  cases a with
  | group name g => exact scanGroup_inStep h g
  | element name tag t => exact inStep_required (h t) tag

end Members

/-! ### Alternatives -/

section Alternatives

variable {site : Site} {child : (t : Content) → Element → Except Error (t.Carrier × Nat)}
  {choice : String} {a : Alternative} {as : List Alternative} {s : Scan}

theorem scanFirst_idle (has : ∀ a ∈ as, a.isChildless = true) :
    Idle (scanFirst site child choice as) := by
  induction as with
  | nil => exact .fail rfl
  | cons a as ih =>
    intro s
    have hidle : Idle (scanAlternative site child a) := scanAlternative_idle (has a (by simp))
    rcases hidle s with ⟨e, he, hfatal⟩ | ⟨v, hv⟩
    · rw [scanFirst_of_error he hfatal]
      exact (ih fun b hb => has b (by simp [hb])).map Sum.inr s
    · exact .inr ⟨.inl v, scanFirst_of_ok hv⟩

variable {strict lenient : (t : Content) → Element → Except Error (t.Carrier × Nat)}

/-- Where an alternative is the same in both scans, so is the choice, or both turn to the
other alternatives. -/
theorem scanFirst_of_agree
    (hagree : Agree s (scanAlternative site.strict strict a s)
      (scanAlternative site.lenient lenient a s)) :
    Agree s (scanFirst site.strict strict choice (a :: as) s)
        (scanFirst site.lenient lenient choice (a :: as) s) ∨
      (scanFirst site.strict strict choice (a :: as) s =
          (Sum.inr <$> scanFirst site.strict strict choice as) s ∧
        scanFirst site.lenient lenient choice (a :: as) s =
          (Sum.inr <$> scanFirst site.lenient lenient choice as) s) := by
  cases hs : scanAlternative site.strict strict a s with
  | error e =>
    have hs' := hagree.eq.symm.trans hs
    cases hfatal : e.isFatal with
    | true =>
      rw [scanFirst_of_fatal hs hfatal, scanFirst_of_fatal hs' hfatal]
      exact .inl .error
    | false => exact .inr ⟨scanFirst_of_error hs hfatal, scanFirst_of_error hs' hfatal⟩
  | ok p =>
    obtain ⟨v, s'⟩ := p
    rw [scanFirst_of_ok hs, scanFirst_of_ok (hagree.eq.symm.trans hs)]
    exact .inl (.ok (hagree.total v s' hs) (hagree.rest v s' hs))

variable (h : ∀ t e, InStepAt e.descendants (strict t e) (lenient t e))

include h

/-- Only the alternative with the name of the next child comes into question. -/
theorem scanFirst_tagged {tags : List String} (htags : as.map (·.tag?) = tags.map some)
    (hnodup : tags.Nodup) :
    InStep (scanFirst site.strict strict choice as) (scanFirst site.lenient lenient choice as) := by
  induction as generalizing tags with
  | nil => exact fun s => .inl .error
  | cons a as ih =>
    obtain _ | ⟨tag, tags⟩ := tags
    case nil => simp at htags
    obtain ⟨htag, htags⟩ := List.cons_eq_cons.mp htags
    obtain ⟨hnew, hnodup⟩ := List.nodup_cons.mp hnodup
    intro s
    by_cases hname : ∀ e ∈ s.rest.head?, e.name ≠ tag
    · rw [scanFirst_of_error (scanAlternative_of_unnamed htag hname) rfl,
        scanFirst_of_error (scanAlternative_of_unnamed htag hname) rfl]
      exact (ih htags hnodup).map Sum.inr s
    · have hothers (site : Site)
          (child : (t : Content) → Element → Except Error (t.Carrier × Nat)) :
          scanFirst site child choice as s =
            .error (.variantExhausted choice site.element.name) := by
        refine scanFirst_of_unnamed fun b hb => ?_
        have hmem : b.tag? ∈ tags.map some := htags ▸ List.mem_map_of_mem hb
        obtain ⟨tag', htag', hb'⟩ := List.mem_map.mp hmem
        refine ⟨tag', hb'.symm, fun e he heq => ?_⟩
        refine hname fun e' he' heq' => hnew ?_
        rw [← heq', ← Option.mem_unique he he', heq]
        exact htag'
      have halternative : InStep (scanAlternative site.strict strict a)
          (scanAlternative site.lenient lenient a) := scanAlternative_inStep h a
      rcases halternative s with hagree | hpart
      · rcases scanFirst_of_agree hagree with hagree' | ⟨hstrict, hlenient⟩
        · exact .inl hagree'
        · rw [hstrict, hlenient, ScanM.map_of_error (hothers _ _),
            ScanM.map_of_error (hothers _ _)]
          exact .inl .error
      · obtain ⟨e, he, hfatal⟩ := hpart.error
        refine .inr ⟨hpart.rest, ⟨.variantExhausted choice site.element.name, ?_, rfl⟩,
          fun v s' hs' => ?_⟩
        · rw [scanFirst_of_error he hfatal]
          exact ScanM.map_of_error (hothers _ _)
        · rcases scanFirst_eq_ok hs' with ⟨w, hw, -⟩ | ⟨w, hw, -⟩
          · exact hpart.total w s' hw
          · cases (hothers _ _).symm.trans hw

/-- Behind an alternative that reads children there are only such that do not. -/
theorem scanFirst_grouped
    (has : as.Pairwise fun a b => a.isChildless = true ∨ b.isChildless = true) (s : Scan) :
    Agree s (scanFirst site.strict strict choice as s) (scanFirst site.lenient lenient choice as s) ∨
      Doom s (scanFirst site.strict strict choice as s)
        (scanFirst site.lenient lenient choice as s) := by
  induction as with
  | nil => exact .inl .error
  | cons a as ih =>
    obtain ⟨hchildless, has⟩ := List.pairwise_cons.mp has
    have halternative : InStep (scanAlternative site.strict strict a)
        (scanAlternative site.lenient lenient a) := scanAlternative_inStep h a
    by_cases hagree : Agree s (scanAlternative site.strict strict a s)
        (scanAlternative site.lenient lenient a s)
    · rcases scanFirst_of_agree hagree with hagree' | ⟨hstrict, hlenient⟩
      · exact .inl hagree'
      · rw [hstrict, hlenient]
        exact (ih has).imp (Agree.map Sum.inr) (Doom.map Sum.inr)
    · have hpart := (halternative s).resolve_left hagree
      have hothers : ∀ b ∈ as, b.isChildless = true := by
        refine fun b hb => (hchildless b hb).resolve_left fun ha => hagree ?_
        rw [scanAlternative_strict_eq ha]
        exact (scanAlternative_idle ha).agree s
      obtain ⟨e, he, hfatal⟩ := hpart.error
      have hidle {site : Site}
          {child : (t : Content) → Element → Except Error (t.Carrier × Nat)} :
          Idle (scanFirst site child choice as) := scanFirst_idle hothers
      refine .inr ⟨fun v s' hs' => ?_, fun e' he' => ?_, fun v s' hs' => ?_⟩
      · rw [scanFirst_of_error he hfatal] at hs'
        rw [(hidle.map Sum.inr).eq_of_ok hs']
        exact hpart.rest
      · rw [scanFirst_of_error he hfatal] at he'
        exact (hidle.map Sum.inr).isFatal_of_error he'
      · rcases scanFirst_eq_ok hs' with ⟨w, hw, -⟩ | ⟨w, hw, -⟩
        · exact hpart.doom.consumed w s' hw
        · rw [hidle.eq_of_ok hw, Scan.total]
          exact Nat.lt_add_of_pos_right (Element.sizes_pos hpart.rest)

end Alternatives

/-! ### Contents -/

section Contents

variable {site : Site} {strict lenient : (t : Content) → Element → Except Error (t.Carrier × Nat)}
  (h : ∀ t e, InStepAt e.descendants (strict t e) (lenient t e))

include h

theorem scanChoice_inStep {c : Choice} {tags : List String} (htags : c.tags? = some tags)
    (hnodup : tags.Nodup) :
    InStep (scanChoice site.strict strict c) (scanChoice site.lenient lenient c) :=
  (scanFirst_tagged h (mapM_tag?_eq_some_iff.mp htags) hnodup).bind fun v =>
    .pure (c.variants.ofAny v)

theorem scanChoice_agree_or_doom (c : Choice) (s : Scan) :
    Agree s (scanChoice site.strict strict c s) (scanChoice site.lenient lenient c s) ∨
      Doom s (scanChoice site.strict strict c s) (scanChoice site.lenient lenient c s) := by
  rcases c.separates_alternatives with hgrouped | ⟨tags, htags, hnodup⟩
  · unfold scanChoice
    rw [← map_eq_pure_bind, ← map_eq_pure_bind]
    exact (scanFirst_grouped h hgrouped s).imp (Agree.map c.variants.ofAny)
      (Doom.map c.variants.ofAny)
  · exact (scanChoice_inStep h htags hnodup s).imp id Part.doom

theorem scanChoices_inStep {c : Choice} {tags : List String} (htags : c.tags? = some tags)
    (hnodup : tags.Nodup) (min : Nat) :
    InStep (scanChoices site.strict strict c min) (scanChoices site.lenient lenient c min) := by
  intro s
  simp only [scanChoices, scanChoicesFrom, htags]
  exact ((InStep.mapM (fun _ => scanChoice_inStep h htags hnodup) _).bind fun values =>
    (inStep_scanMin site c.name min values.length).bind fun _ => .pure values) s

variable (site) in
theorem scanContent_agree_or_doom (t : Content) (s : Scan) :
    Agree s (scanContent site.strict strict t s) (scanContent site.lenient lenient t s) ∨
      Doom s (scanContent site.strict strict t s) (scanContent site.lenient lenient t s) := by
  cases t with
  | group g => exact (scanGroup_inStep h g s).imp id Part.doom
  | choice c => exact scanChoice_agree_or_doom h c s
  | series r =>
    obtain ⟨tags, htags, hnodup, -⟩ := r.tags?_choice
    have hseries : InStep (scanContent site.strict strict (.series r))
        (scanContent site.lenient lenient (.series r)) :=
      (scanTuple_inStep h r.record.members).bind fun values =>
        (scanChoices_inStep h htags hnodup r.record.min).bind fun entries =>
          .pure (r.record.ofParts (values, entries))
    exact (hseries s).imp id Part.doom

end Contents

/-! ### Levels -/

/-- By induction on the levels that the limit leaves. -/
theorem scanLevels_inStepAt (limit levels : Nat) (t : Content) (e : Element) :
    InStepAt e.descendants (scanLevels true limit levels t e) (scanLevels false limit levels t e) := by
  induction levels generalizing t e with
  | zero => exact .inl ⟨rfl, fun a n h => nomatch h⟩
  | succ n ih =>
    let site : Site := { element := e, denyUnknown := true, limit, below := n }
    exact scanElement_inStepAt site (scanContent_agree_or_doom site ih t)

end GuestXml.Schema
