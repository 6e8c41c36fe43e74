import GuestXml.Proofs.Reading.Agreement
import GuestXml.Proofs.Reading.Steps
import GuestXml.Proofs.Xml.Reordering

/-!
# Attributes in another order

What is read of an element does not depend on the order of its attributes, nor on that of the
attributes of any element inside. Two scans of such elements go side by side: each step comes
to the same value and leaves children that differ in the order of attributes again, or fails
on both sides, fatally on both or on neither (`Alike`). The errors may differ in one point: an
element that has to be empty names its first attribute.

* `scanLevels_reordered`: so it is for whole elements, by induction on the levels.
* `Content.load_reordered`: two such trees are loaded as the same value with the same count.
-/

namespace GuestXml.Schema

open Xml (Element)

/-! ### Two scans side by side -/

/-- What is left in the scans are reorderings of the same children. -/
structure Scan.Reordered (s s' : Scan) : Prop where
  rest : s.rest.Forall₂ Element.Reordered s'.rest
  consumed : s.consumed = s'.consumed
  asked : s.asked = s'.asked

/-- The same conditions for elements that are reorderings of each other. -/
structure Site.Reordered (site site' : Site) : Prop where
  element : site.element.Reordered site'.element
  denyUnknown : site.denyUnknown = site'.denyUnknown
  below : site.below = site'.below

section Relations

variable {α β γ δ : Type}

/-- Both results are values that are related, or both are errors, fatal or not. -/
inductive SameOutcome (R : α → β → Prop) : Except Error α → Except Error β → Prop where
  | ok {a : α} {b : β} (h : R a b) : SameOutcome R (.ok a) (.ok b)
  | error {e e' : Error} (h : e.isFatal = e'.isFatal) : SameOutcome R (.error e) (.error e')

namespace SameOutcome

theorem map {result result' : Except Error α} (h : SameOutcome Eq result result') (f : α → β) :
    SameOutcome Eq (result.map f) (result'.map f) := by
  cases h with
  | ok h => exact .ok (congrArg f h)
  | error h => exact .error h

theorem ok_iff {result result' : Except Error α} (h : SameOutcome Eq result result') (a : α) :
    result = .ok a ↔ result' = .ok a := by
  cases h with
  | ok h =>
    subst h
    exact Iff.rfl
  | error h => exact ⟨nofun, nofun⟩

end SameOutcome

/-- The scans come to related values from scans of reordered children, and leave reordered
children. -/
def Alike (R : α → β → Prop) (scan : ScanM α) (scan' : ScanM β) : Prop :=
  ∀ s s', s.Reordered s' →
    SameOutcome (fun p q => R p.1 q.1 ∧ p.2.Reordered q.2) (scan s) (scan' s')

namespace Alike

variable {R : α → β → Prop} {S : γ → δ → Prop} {scan : ScanM α} {scan' : ScanM β}

theorem pure {a : α} {b : β} (h : R a b) : Alike R (pure a) (pure b) :=
  fun _ _ hs => .ok ⟨h, hs⟩

theorem fail {e e' : Error} (h : e.isFatal = e'.isFatal) : Alike R (.fail e) (.fail e') :=
  fun _ _ _ => .error h

/-- Both scans come to one value, or both fail. -/
theorem run {scan scan' : ScanM α} (h : Alike Eq scan scan') {s s' : Scan} (hs : s.Reordered s') :
    (∃ v t t', scan s = .ok (v, t) ∧ scan' s' = .ok (v, t') ∧ t.Reordered t') ∨
      ∃ e e', scan s = .error e ∧ scan' s' = .error e' ∧ e.isFatal = e'.isFatal := by
  have hrun := h s s' hs
  generalize scan s = result, scan' s' = result' at hrun
  cases hrun with
  | error hfatal => exact .inr ⟨_, _, rfl, rfl, hfatal⟩
  | @ok p q hvalue =>
    obtain ⟨v, t⟩ := p
    obtain ⟨v', t'⟩ := q
    obtain ⟨rfl, ht⟩ : v = v' ∧ t.Reordered t' := hvalue
    exact .inl ⟨v, t, t', rfl, rfl, ht⟩

theorem ofExcept (result : Except Error α) : Alike Eq (.ofExcept result) (.ofExcept result) := by
  intro s s' hs
  cases result with
  | ok a => exact .ok ⟨rfl, hs⟩
  | error e => exact .error rfl

theorem bind {next : α → ScanM γ} {next' : β → ScanM δ} (h : Alike R scan scan')
    (h' : ∀ a b, R a b → Alike S (next a) (next' b)) :
    Alike S (scan >>= next) (scan' >>= next') := by
  intro s s' hs
  have hfirst := h s s' hs
  generalize hscan : scan s = result, hscan' : scan' s' = result' at hfirst
  cases hfirst with
  | ok hvalue =>
    rw [ScanM.bind_of_ok hscan, ScanM.bind_of_ok hscan']
    exact h' _ _ hvalue.1 _ _ hvalue.2
  | error hfatal =>
    rw [ScanM.bind_of_error hscan, ScanM.bind_of_error hscan']
    exact .error hfatal

theorem map {f : α → γ} {f' : β → δ} (h : Alike R scan scan')
    (hf : ∀ a b, R a b → S (f a) (f' b)) : Alike S (f <$> scan) (f' <$> scan') := by
  rw [map_eq_pure_bind, map_eq_pure_bind]
  exact h.bind fun a b hab => .pure (hf a b hab)

/-- Scans that come to the same value go on alike. -/
theorem bindEq {scan scan' : ScanM α} {next next' : α → ScanM γ} (h : Alike Eq scan scan')
    (h' : ∀ a, Alike Eq (next a) (next' a)) : Alike Eq (scan >>= next) (scan' >>= next') :=
  h.bind fun a _ hab => hab ▸ h' a

theorem mapEq {scan scan' : ScanM α} (f : α → γ) (h : Alike Eq scan scan') :
    Alike Eq (f <$> scan) (f <$> scan') :=
  h.map fun _ _ hab => congrArg f hab

theorem mapM {P : α → β → Prop} {read : α → ScanM γ} {read' : β → ScanM γ} {as : List α}
    {bs : List β} (has : as.Forall₂ P bs) (h : ∀ a b, P a b → Alike Eq (read a) (read' b)) :
    Alike Eq (as.mapM read) (bs.mapM read') := by
  induction has with
  | nil => exact .pure rfl
  | @cons a b as bs hab _ ih =>
    rw [List.mapM_cons, List.mapM_cons]
    exact (h a b hab).bindEq fun v => ih.bindEq fun vs => .pure rfl

/-- A repetition stops on both sides at the same time. -/
theorem whileTaken {scan scan' : ScanM α} (h : Alike Eq scan scan') (most : Nat) :
    Alike Eq (scanWhileTaken scan most) (scanWhileTaken scan' most) := by
  induction most with
  | zero => exact .pure rfl
  | succ n ih =>
    intro s s' hs
    have hempty : s.rest.isEmpty = s'.rest.isEmpty := by
      rw [Bool.eq_iff_iff, List.isEmpty_iff_length_eq_zero, List.isEmpty_iff_length_eq_zero,
        hs.rest.length_eq]
    unfold scanWhileTaken
    rw [hempty]
    by_cases hdone : s'.rest.isEmpty = true
    · rw [if_pos hdone, if_pos hdone]
      exact .ok ⟨rfl, hs⟩
    · rw [if_neg hdone, if_neg hdone]
      obtain ⟨v, t, t', hrun, hrun', ht⟩ | ⟨e, e', hrun, hrun', hfatal⟩ := h.run hs
      · simp only [hrun, hrun', ht.consumed, hs.consumed]
        by_cases hstay : t'.consumed = s'.consumed
        · rw [if_pos hstay, if_pos hstay]
          exact .ok ⟨rfl, ht⟩
        · rw [if_neg hstay, if_neg hstay]
          exact ih.mapEq _ t t' ht
      · simp only [hrun, hrun', hfatal]
        by_cases hfatal' : e'.isFatal = true
        · rw [if_pos hfatal', if_pos hfatal']
          exact .error hfatal
        · rw [if_neg hfatal', if_neg hfatal']
          exact .ok ⟨rfl, hs⟩

end Alike

end Relations

/-! ### Children -/

theorem Scan.Reordered.ask {s s' : Scan} (h : s.Reordered s') (name : String) :
    (s.ask name).Reordered (s'.ask name) := by
  refine ⟨by simpa using h.rest, by simpa using h.consumed, ?_⟩
  unfold Scan.ask
  rw [h.asked]
  split
  · exact h.asked
  · rfl

/-- Elements are picked by name. -/
theorem forall₂_takeWhile {es es' : List Element} (h : es.Forall₂ Element.Reordered es')
    (p : String → Bool) :
    (es.takeWhile fun e => p e.name).Forall₂ Element.Reordered
      (es'.takeWhile fun e => p e.name) := by
  induction h with
  | nil => exact .nil
  | @cons e e' es es' he _ ih =>
    rw [List.takeWhile_cons, List.takeWhile_cons, he.name_eq]
    split
    · exact .cons he ih
    · exact .nil

theorem forall₂_head? {es es' : List Element} (h : es.Forall₂ Element.Reordered es')
    (p : String → Bool) :
    Option.Rel Element.Reordered (es.head?.filter fun e => p e.name)
      (es'.head?.filter fun e => p e.name) := by
  cases h with
  | nil => exact .none
  | cons he _ =>
    rw [List.head?_cons, List.head?_cons, Option.filter_some, Option.filter_some, he.name_eq]
    split
    · exact .some he
    · exact .none

theorem forall₂_findSome? {α β : Type} {es es' : List Element} {R : α → β → Prop}
    {f : Element → Option α} {f' : Element → Option β} (h : es.Forall₂ Element.Reordered es')
    (hf : ∀ e e', e.Reordered e' → Option.Rel R (f e) (f' e')) :
    Option.Rel R (es.findSome? f) (es'.findSome? f') := by
  induction h with
  | nil => exact .none
  | @cons e e' es es' he _ ih =>
    have hfirst := hf e e' he
    rw [List.findSome?_cons, List.findSome?_cons]
    generalize f e = x, f' e' = y at hfirst
    cases hfirst with
    | some hab => exact .some hab
    | none => exact ih

theorem alike_scanNext? (name : String) :
    Alike (Option.Rel Element.Reordered) (scanNext? name) (scanNext? name) :=
  fun _ _ hs => .ok ⟨forall₂_head? hs.rest (· == name), hs.ask name⟩

theorem alike_scanAll (name : String) :
    Alike (List.Forall₂ Element.Reordered) (scanAll name) (scanAll name) :=
  fun _ _ hs => .ok ⟨forall₂_takeWhile hs.rest (· == name), hs.ask name⟩

section Children

variable {α β : Type} {site site' : Site}

theorem alike_scanRequired (name : String) :
    Alike Element.Reordered (scanRequired site name) (scanRequired site' name) := by
  refine (alike_scanNext? name).bind fun e? e'? he => ?_
  cases he with
  | none => exact .fail rfl
  | some he => exact .pure he

theorem alike_scanMin (name : String) (min found : Nat) :
    Alike Eq (scanMin site name min found) (scanMin site' name min found) := by
  unfold scanMin
  by_cases hfew : found < min
  · rw [if_pos hfew, if_pos hfew]
    exact .fail rfl
  · rw [if_neg hfew, if_neg hfew]
    exact .pure rfl

variable (h : site.Reordered site')

include h

theorem Site.Reordered.child {e e' : Element} (he : e.Reordered e') :
    (site.child e).Reordered (site'.child e') :=
  ⟨he, h.denyUnknown, congrArg (· - 1) h.below⟩

theorem alike_scanChild {result result' : Except Error (α × Nat)}
    (hresult : SameOutcome Eq result result') :
    Alike Eq (scanChild site result) (scanChild site' result') := by
  intro s s' hs
  unfold scanChild
  rw [h.below]
  by_cases hbelow : site'.below = 0
  · rw [if_pos hbelow, if_pos hbelow]
    exact .error rfl
  · rw [if_neg hbelow, if_neg hbelow]
    cases hresult with
    | error hfatal => exact .error hfatal
    | ok heq =>
      subst heq
      have htail := List.forall₂_drop 1 hs.rest
      rw [List.drop_one, List.drop_one] at htail
      exact .ok ⟨rfl, htail, by rw [hs.consumed], hs.asked⟩

/-- The same child is left over wrongly on both sides. -/
theorem alike_scanEnd : Alike Eq (scanEnd site) (scanEnd site') := by
  intro s s' hs
  have hfault (c c' : Element) (hc : c.Reordered c') :
      Option.Rel (fun e e' => e.isFatal = e'.isFatal) (s.fault? site c) (s'.fault? site' c') := by
    unfold Scan.fault?
    rw [hc.name_eq, hs.asked, h.denyUnknown]
    split
    · exact .some rfl
    · split
      · exact .some rfl
      · exact .none
  have hfirst := forall₂_findSome? hs.rest hfault
  unfold scanEnd
  generalize s.rest.findSome? (s.fault? site) = x, s'.rest.findSome? (s'.fault? site') = y at hfirst
  cases hfirst with
  | some hfatal => exact .error hfatal
  | none => exact .ok ⟨rfl, hs⟩

/-- A whole element is read from its first child on. -/
theorem sameOutcome_scanElement {scan scan' : ScanM α} (hscan : Alike Eq scan scan') :
    SameOutcome Eq (scanElement site scan) (scanElement site' scan') := by
  have hstart : Scan.Reordered { rest := site.element.childElements }
      { rest := site'.element.childElements } :=
    ⟨h.element.childElements, rfl, rfl⟩
  have hread : Alike Eq (do let a ← scan; scanEnd site; return a)
      (do let a ← scan'; scanEnd site'; return a) :=
    hscan.bindEq fun a => (alike_scanEnd h).bindEq fun _ => .pure rfl
  unfold scanElement
  obtain ⟨v, t, t', hrun, hrun', ht⟩ | ⟨e, e', hrun, hrun', hfatal⟩ := hread.run hstart
  · simp only [hrun, hrun']
    exact .ok (congrArg (Prod.mk v) ht.consumed)
  · simp only [hrun, hrun']
    exact .error hfatal

variable {scan scan' : Element → Except Error (α × Nat)}
  (hscan : ∀ e e', e.Reordered e' → SameOutcome Eq (scan e) (scan' e'))

include hscan

theorem alike_required (name : String) :
    Alike Eq (do scanChild site (scan (← scanRequired site name)))
      (do scanChild site' (scan' (← scanRequired site' name))) :=
  (alike_scanRequired name).bind fun _ _ he => alike_scanChild h (hscan _ _ he)

theorem alike_optional (name : String) (f : α → β) (b : β) :
    Alike Eq
      (do match ← scanNext? name with
          | some e => f <$> scanChild site (scan e)
          | none => return b)
      (do match ← scanNext? name with
          | some e => f <$> scanChild site' (scan' e)
          | none => return b) := by
  refine (alike_scanNext? name).bind fun e? e'? he => ?_
  cases he with
  | none => exact .pure rfl
  | some he => exact (alike_scanChild h (hscan _ _ he)).mapEq f

theorem alike_many (name : String) (min : Nat) :
    Alike Eq
      (do let values ← (← scanAll name).mapM fun e => scanChild site (scan e)
          scanMin site name min values.length
          return values)
      (do let values ← (← scanAll name).mapM fun e => scanChild site' (scan' e)
          scanMin site' name min values.length
          return values) :=
  (alike_scanAll name).bind fun _ _ hes =>
    (Alike.mapM hes fun _ _ he => alike_scanChild h (hscan _ _ he)).bindEq fun values =>
      (alike_scanMin name min values.length).bindEq fun _ => .pure rfl

end Children

/-! ### Members and alternatives -/

section Members

variable {site site' : Site} (h : site.Reordered site')
  {child child' : (t : Content) → Element → Except Error (t.Carrier × Nat)}
  (hchild : ∀ t e e', e.Reordered e' → SameOutcome Eq (child t e) (child' t e'))

include h

theorem sameOutcome_scanValue (t : Scalar) (e e' : Element) (he : e.Reordered e') :
    SameOutcome Eq (scanValue site t e) (scanValue site' t e') := by
  unfold scanValue
  rw [he.text_eq]
  exact sameOutcome_scanElement (h.child he) (.ofExcept _)

theorem sameOutcome_scanFlag (e e' : Element) (he : e.Reordered e') :
    SameOutcome Eq (scanFlag site e) (scanFlag site' e') :=
  sameOutcome_scanElement (h.child he) (.pure rfl)

/-- Which attribute comes first shows in the error only. -/
theorem alike_scanNoContent : Alike Eq (scanNoContent site) (scanNoContent site') := by
  intro s s' hs
  have hbare := h.element.attributes_eq_nil
  have hrest := hs.rest
  unfold scanNoContent
  rw [h.element.text_eq]
  generalize site.element.attributes = as, site'.element.attributes = bs at hbare
  cases as with
  | cons a as =>
    cases bs with
    | nil => exact absurd (hbare.mpr rfl) (List.cons_ne_nil a as)
    | cons b bs => exact .error rfl
  | nil =>
    obtain rfl : bs = [] := hbare.mp rfl
    generalize s.rest = es, s'.rest = es' at hrest
    cases hrest with
    | cons he hes => exact .error rfl
    | nil =>
      by_cases hblank : Text.isBlankText site'.element.text = true
      · rw [if_pos hblank, if_pos hblank]
        exact .ok ⟨rfl, hs⟩
      · rw [if_neg hblank, if_neg hblank]
        exact .error rfl

include hchild

theorem alike_scanField (f : Field) : Alike Eq (scanField site child f) (scanField site' child' f) := by
  have hattribute := h.element.attribute?_eq
  have htext := h.element.text_eq
  cases f with
  | attr name s =>
    simp only [scanField, hattribute]
    split
    · exact .ofExcept _
    · exact .fail rfl
  | optionalAttr name s =>
    simp only [scanField, hattribute]
    split
    · exact (Alike.ofExcept _).mapEq some
    · exact .pure rfl
  | constant name value =>
    simp only [scanField, hattribute]
    split
    · split
      · exact .pure rfl
      · exact .fail rfl
    · exact .fail rfl
  | text s =>
    simp only [scanField, htext]
    exact .ofExcept _
  | optionalText s =>
    simp only [scanField, htext]
    split
    · exact .pure rfl
    · exact (Alike.ofExcept _).mapEq some
  | noContent => exact alike_scanNoContent h
  | valueElement name s => exact alike_required h (sameOutcome_scanValue h s) name
  | optionalValueElement name s => exact alike_optional h (sameOutcome_scanValue h s) name some none
  | valueElements name min s => exact alike_many h (sameOutcome_scanValue h s) name min
  | flag name => exact alike_optional h (sameOutcome_scanFlag h) name (fun _ => true) false
  | element name t => exact alike_required h (hchild t) name
  | optionalElement name t => exact alike_optional h (hchild t) name some none
  | elements name min t => exact alike_many h (hchild t) name min

theorem alike_scanTuple (ms : List Member) :
    Alike Eq (scanTuple site child ms) (scanTuple site' child' ms) := by
  induction ms with
  | nil => exact .pure rfl
  | cons m ms ih =>
    exact (alike_scanField h hchild m.field).bindEq fun v => ih.bindEq fun vs => .pure rfl

theorem alike_scanGroup (g : Group) : Alike Eq (scanGroup site child g) (scanGroup site' child' g) :=
  (alike_scanTuple h hchild g.record.members).bindEq fun _ => .pure rfl

theorem alike_scanAlternative (a : Alternative) :
    Alike Eq (scanAlternative site child a) (scanAlternative site' child' a) := by
  cases a with
  | group name g => exact alike_scanGroup h hchild g
  | element name tag t => exact alike_required h (hchild t) tag

/-- The same alternatives are rejected on both sides. -/
theorem alike_scanFirst (choice : String) (as : List Alternative) :
    Alike Eq (scanFirst site child choice as) (scanFirst site' child' choice as) := by
  induction as with
  | nil => exact .fail rfl
  | cons a as ih =>
    intro s s' hs
    obtain ⟨v, t, t', hrun, hrun', ht⟩ | ⟨e, e', hrun, hrun', hfatal⟩ :=
      (alike_scanAlternative h hchild a).run hs
    · rw [scanFirst_of_ok hrun, scanFirst_of_ok hrun']
      exact .ok ⟨rfl, ht⟩
    · cases hfatal' : e'.isFatal with
      | true =>
        rw [scanFirst_of_fatal hrun (hfatal.trans hfatal'), scanFirst_of_fatal hrun' hfatal']
        exact .error hfatal
      | false =>
        rw [scanFirst_of_error hrun (hfatal.trans hfatal'), scanFirst_of_error hrun' hfatal']
        exact ih.mapEq Sum.inr s s' hs

theorem alike_scanChoice (c : Choice) :
    Alike Eq (scanChoice site child c) (scanChoice site' child' c) :=
  (alike_scanFirst h hchild c.name c.variants.alternatives).bindEq fun _ => .pure rfl

theorem alike_scanChoices (c : Choice) (min : Nat) :
    Alike Eq (scanChoices site child c min) (scanChoices site' child' c min) := by
  intro s s' hs
  have hchoice := alike_scanChoice h hchild c
  have hmin (values : List c.Carrier) : Alike Eq
      (do scanMin site c.name min values.length; return values)
      (do scanMin site' c.name min values.length; return values) :=
    (alike_scanMin c.name min values.length).bindEq fun _ => .pure rfl
  unfold scanChoices scanChoicesFrom
  cases c.tags? with
  | some tags =>
    exact (Alike.mapM (forall₂_takeWhile hs.rest tags.contains) fun _ _ _ =>
      hchoice).bindEq hmin s s' hs
  | none =>
    rw [hs.rest.length_eq]
    exact (hchoice.whileTaken _).bindEq hmin s s' hs

theorem alike_scanContent (t : Content) :
    Alike Eq (scanContent site child t) (scanContent site' child' t) := by
  cases t with
  | group g => exact alike_scanGroup h hchild g
  | choice c => exact alike_scanChoice h hchild c
  | series s =>
    exact (alike_scanTuple h hchild s.record.members).bindEq fun _ =>
      (alike_scanChoices h hchild s.record.choice s.record.min).bindEq fun _ => .pure rfl

end Members

/-! ### Levels -/

/-- **The order of attributes plays no part.** By induction on the levels. -/
theorem scanLevels_reordered (denyUnknown : Bool) (limit levels : Nat) (t : Content)
    (e e' : Element) (he : e.Reordered e') :
    SameOutcome Eq (scanLevels denyUnknown limit levels t e)
      (scanLevels denyUnknown limit levels t e') := by
  induction levels generalizing t e e' with
  | zero => exact .error rfl
  | succ n ih =>
    let site : Site := { element := e, denyUnknown, limit, below := n }
    let site' : Site := { element := e', denyUnknown, limit, below := n }
    have hsite : site.Reordered site' := ⟨he, rfl, rfl⟩
    exact sameOutcome_scanElement hsite (alike_scanContent hsite ih t)

/-- A type loads two trees that differ in the order of attributes as the same value, with the
same count of elements consumed, or it loads neither. -/
theorem Content.load_reordered {e e' : Element} (he : e.Reordered e') (t : Content)
    (o : LoadOptions) :
    (∀ v n, t.loadCounted o e = .ok (v, n) ↔ t.loadCounted o e' = .ok (v, n)) ∧
      ∀ v, t.load o e = .ok v ↔ t.load o e' = .ok v := by
  have hloads : SameOutcome Eq (t.loadCounted o e) (t.loadCounted o e') := by
    unfold loadCounted tagMismatch?
    rw [he.name_eq, readRoot_eq_scan, readRoot_eq_scan]
    have hread := scanLevels_reordered o.denyUnknown (max o.maxDepth 1) (max o.maxDepth 1) t e e' he
    cases t.tag? with
    | none => exact hread
    | some tag =>
      by_cases hname : e'.name = tag
      · simp only [if_pos hname]
        exact hread
      · simp only [if_neg hname]
        exact .error rfl
  refine ⟨fun v n => hloads.ok_iff (v, n), fun v => ?_⟩
  unfold load
  exact (hloads.map Prod.fst).ok_iff v

/-- An address is told by its type wherever that stands among the attributes. -/
theorem Content.load_reordered_drive :
    let address (attributes : List (String × String)) : Element := { name := "address", attributes }
    let disk (outer inner : List (String × String)) : Element := {
      name := "disk", attributes := outer, children := [
        .element { name := "target", attributes := [("dev", "sda")] }, .text "\n",
        .element (address inner)] }
    let straight := disk [("type", "file"), ("device", "cdrom")]
      [("type", "drive"), ("controller", "0"), ("unit", "3")]
    let turned := disk [("device", "cdrom"), ("type", "file")]
      [("unit", "3"), ("type", "drive"), ("controller", "0")]
    straight.Reordered turned ∧
      (Content.group .disk).loadCounted { maxDepth := 3 } turned = .ok ({
        device := some .cdrom
        target := { dev := "sda" }
        address := some (.drive {
          controller := some ⟨0, by decide, by decide⟩
          unit := some ⟨3, by decide, by decide⟩ }) }, 2) := by
  intro address disk straight turned
  have htarget : Element.Reordered { name := "target", attributes := [("dev", "sda")] }
      { name := "target", attributes := [("dev", "sda")] } :=
    .intro (.refl _) (by decide) .nil
  have haddress : (address [("type", "drive"), ("controller", "0"), ("unit", "3")]).Reordered
      (address [("unit", "3"), ("type", "drive"), ("controller", "0")]) :=
    .intro (by decide) (by decide) .nil
  have hdisk : straight.Reordered turned :=
    .intro (by decide) (by decide) (.element htarget (.text (.element haddress .nil)))
  exact ⟨hdisk, ((Content.load_reordered hdisk (.group .disk) { maxDepth := 3 }).1 _ _).mp (by decide)⟩

end GuestXml.Schema
