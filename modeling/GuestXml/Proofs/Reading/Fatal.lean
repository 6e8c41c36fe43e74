import GuestXml.Proofs.Reading.Steps

/-!
# The fatal error of a scan

An error ends a load at once if it is fatal. Of all that can go wrong while a tree is read,
only one thing is: elements nest deeper than the limit. That error names the limit of the
whole tree, so two fatal errors of one reading are the same. Each step keeps to this
(`FailsUnder`), and so do whole elements: `scanLevels_failsUnder`.
-/

namespace GuestXml.Schema

open Xml (Element)

/-- An error that may come up under a limit: a fatal one says that the limit is exceeded. -/
def FitsLimit (limit : Nat) (err : Error) : Prop :=
  err.isFatal = true → err = .depthExceeded limit

/-- A scan fails with errors only that may come up under a limit. -/
def FailsUnder {α : Type} (limit : Nat) (scan : ScanM α) : Prop :=
  ∀ s err, scan s = .error err → FitsLimit limit err

theorem FitsLimit.of_not_fatal {limit : Nat} {err : Error} (h : err.isFatal = false) :
    FitsLimit limit err := by
  intro hfatal
  rw [h] at hfatal
  cases hfatal

/-! ### Combining scans -/

namespace FailsUnder

variable {α β γ : Type} {limit : Nat} {scan : ScanM α}

theorem idle (h : Idle scan) : FailsUnder limit scan :=
  fun _ _ herr => .of_not_fatal (h.isFatal_of_error herr)

theorem pure (a : α) : FailsUnder limit (pure a) :=
  .idle (.pure a)

theorem bind {next : α → ScanM β} (h : FailsUnder limit scan)
    (h' : ∀ a, FailsUnder limit (next a)) : FailsUnder limit (scan >>= next) := by
  intro s err herr
  cases hs : scan s with
  | error e =>
    rw [ScanM.bind_of_error hs] at herr
    cases herr
    exact h s err hs
  | ok p =>
    obtain ⟨a, s'⟩ := p
    rw [ScanM.bind_of_ok hs] at herr
    exact h' a s' err herr

theorem map (f : α → β) (h : FailsUnder limit scan) : FailsUnder limit (f <$> scan) := by
  rw [map_eq_pure_bind]
  exact h.bind fun a => .pure (f a)

theorem mapM {scan : γ → ScanM α} (h : ∀ c, FailsUnder limit (scan c)) (cs : List γ) :
    FailsUnder limit (cs.mapM scan) := by
  induction cs with
  | nil =>
    rw [List.mapM_nil]
    exact .pure []
  | cons c cs ih =>
    rw [List.mapM_cons]
    exact (h c).bind fun a => ih.bind fun as => .pure (a :: as)

/-- A repetition that stops at an error does not fail with it. -/
theorem whileTaken (h : FailsUnder limit scan) (most : Nat) :
    FailsUnder limit (scanWhileTaken scan most) := by
  induction most with
  | zero => exact .pure []
  | succ n ih =>
    intro s err herr
    unfold scanWhileTaken at herr
    by_cases hempty : s.rest.isEmpty = true
    · rw [if_pos hempty] at herr
      cases herr
    · rw [if_neg hempty] at herr
      cases hs : scan s with
      | error e =>
        simp only [hs] at herr
        by_cases hfatal : e.isFatal = true
        · rw [if_pos hfatal] at herr
          cases herr
          exact h s err hs
        · rw [if_neg hfatal] at herr
          cases herr
      | ok p =>
        obtain ⟨a, s'⟩ := p
        simp only [hs] at herr
        by_cases hstay : s'.consumed = s.consumed
        · rw [if_pos hstay] at herr
          cases herr
        · rw [if_neg hstay] at herr
          exact ih.map _ s' err herr

end FailsUnder

/-! ### Children -/

section Children

variable {α β : Type}

theorem failsUnder_scanMin (site : Site) (name : String) (min found : Nat) :
    FailsUnder site.limit (scanMin site name min found) := by
  unfold scanMin
  by_cases hfew : found < min
  · rw [if_pos hfew]
    exact .idle (.fail rfl)
  · rw [if_neg hfew]
    exact .pure ()

theorem failsUnder_scanRequired (site : Site) (name : String) :
    FailsUnder site.limit (scanRequired site name) := by
  have hnext : FailsUnder site.limit (scanNext? name) := fun s err herr => nomatch herr
  refine hnext.bind fun e? => ?_
  cases e? with
  | none => exact .idle (.fail rfl)
  | some e => exact .pure e

theorem fitsLimit_scanElement (site : Site) {scan : ScanM α} (h : FailsUnder site.limit scan)
    {err : Error} (herr : scanElement site scan = .error err) : FitsLimit site.limit err := by
  cases hs : scan { rest := site.element.childElements } with
  | error e =>
    rw [scanElement_of_error hs] at herr
    cases herr
    exact h _ err hs
  | ok p =>
    obtain ⟨a, s⟩ := p
    rw [scanElement_of_ok hs, scanEnd] at herr
    cases hfault : s.rest.findSome? (s.fault? site) with
    | none =>
      rw [hfault] at herr
      cases herr
    | some e =>
      rw [hfault] at herr
      cases herr
      obtain ⟨c, -, hc⟩ := List.exists_of_findSome?_eq_some hfault
      exact .of_not_fatal (isFatal_fault? hc)

variable {site : Site} {scan : Element → Except Error (α × Nat)}
  (h : ∀ e err, scan e = .error err → FitsLimit site.limit err)

include h

theorem failsUnder_scanChild (e : Element) : FailsUnder site.limit (scanChild site (scan e)) := by
  intro s err herr
  unfold scanChild at herr
  by_cases hbelow : site.below = 0
  · rw [if_pos hbelow] at herr
    cases herr
    exact fun _ => rfl
  · rw [if_neg hbelow] at herr
    cases hscan : scan e with
    | ok p =>
      rw [hscan] at herr
      cases herr
    | error e' =>
      rw [hscan] at herr
      cases herr
      exact h e err hscan

theorem failsUnder_required (name : String) :
    FailsUnder site.limit (do scanChild site (scan (← scanRequired site name))) :=
  (failsUnder_scanRequired site name).bind fun e => failsUnder_scanChild h e

theorem failsUnder_optional (name : String) (f : α → β) (b : β) :
    FailsUnder site.limit
      (do match ← scanNext? name with
          | some e => f <$> scanChild site (scan e)
          | none => return b) := by
  have hnext : FailsUnder site.limit (scanNext? name) := fun s err herr => nomatch herr
  refine hnext.bind fun e? => ?_
  cases e? with
  | none => exact .pure b
  | some e => exact (failsUnder_scanChild h e).map f

theorem failsUnder_many (name : String) (min : Nat) :
    FailsUnder site.limit
      (do let values ← (← scanAll name).mapM fun e => scanChild site (scan e)
          scanMin site name min values.length
          return values) := by
  have hall : FailsUnder site.limit (scanAll name) := fun s err herr => nomatch herr
  refine hall.bind fun es => (FailsUnder.mapM (failsUnder_scanChild h) es).bind fun values => ?_
  exact (failsUnder_scanMin site name min values.length).bind fun _ => .pure values

end Children

/-! ### Members and alternatives -/

section Members

variable {site : Site} {child : (t : Content) → Element → Except Error (t.Carrier × Nat)}
  (h : ∀ t e err, child t e = .error err → FitsLimit site.limit err)

include h

theorem failsUnder_scanField (f : Field) : FailsUnder site.limit (scanField site child f) := by
  by_cases hf : f.childName? = none
  · exact .idle (scanField_idle hf)
  · have hvalue (s : Scalar) (e : Element) (err : Error)
        (herr : scanValue site s e = .error err) : FitsLimit site.limit err :=
      fitsLimit_scanElement (site.child e) (.idle (.decode s e.text)) herr
    have hflag (e : Element) (err : Error) (herr : scanFlag site e = .error err) :
        FitsLimit site.limit err :=
      fitsLimit_scanElement (site.child e) (.pure ()) herr
    cases f with
    | valueElement name s => exact failsUnder_required (hvalue s) name
    | optionalValueElement name s => exact failsUnder_optional (hvalue s) name some none
    | valueElements name min s => exact failsUnder_many (hvalue s) name min
    | flag name => exact failsUnder_optional hflag name (fun _ => true) false
    | element name t => exact failsUnder_required (h t) name
    | optionalElement name t => exact failsUnder_optional (h t) name some none
    | elements name min t => exact failsUnder_many (h t) name min
    | _ => exact absurd rfl hf

theorem failsUnder_scanTuple (ms : List Member) :
    FailsUnder site.limit (scanTuple site child ms) := by
  induction ms with
  | nil => exact .pure ()
  | cons m ms ih =>
    exact (failsUnder_scanField h m.field).bind fun v => ih.bind fun vs => .pure (v, vs)

theorem failsUnder_scanGroup (g : Group) : FailsUnder site.limit (scanGroup site child g) :=
  (failsUnder_scanTuple h g.record.members).bind fun vs => .pure (g.record.ofTuple vs)

theorem failsUnder_scanAlternative (a : Alternative) :
    FailsUnder site.limit (scanAlternative site child a) := by
  cases a with
  | group name g => exact failsUnder_scanGroup h g
  | element name tag t => exact failsUnder_required (h t) tag

theorem failsUnder_scanFirst (choice : String) (as : List Alternative) :
    FailsUnder site.limit (scanFirst site child choice as) := by
  induction as with
  | nil => exact .idle (.fail rfl)
  | cons a as ih =>
    intro s err herr
    cases hs : scanAlternative site child a s with
    | ok p =>
      rw [scanFirst_of_ok hs] at herr
      cases herr
    | error e =>
      by_cases hfatal : e.isFatal = true
      · rw [scanFirst_of_fatal hs hfatal] at herr
        cases herr
        exact failsUnder_scanAlternative h a s err hs
      · rw [scanFirst_of_error hs (Bool.eq_false_iff.mpr hfatal)] at herr
        exact ih.map Sum.inr s err herr

theorem failsUnder_scanChoice (c : Choice) : FailsUnder site.limit (scanChoice site child c) :=
  (failsUnder_scanFirst h c.name c.variants.alternatives).bind fun v =>
    .pure (c.variants.ofAny v)

theorem failsUnder_scanChoices (c : Choice) (min : Nat) :
    FailsUnder site.limit (scanChoices site child c min) := by
  have hmin (values : List c.Carrier) :=
    (failsUnder_scanMin site c.name min values.length).bind fun _ => .pure values
  intro s
  unfold scanChoices scanChoicesFrom
  cases c.tags? with
  | some tags => exact ((FailsUnder.mapM (fun _ => failsUnder_scanChoice h c) _).bind hmin) s
  | none => exact (((failsUnder_scanChoice h c).whileTaken _).bind hmin) s

theorem failsUnder_scanContent (t : Content) : FailsUnder site.limit (scanContent site child t) := by
  cases t with
  | group g => exact failsUnder_scanGroup h g
  | choice c => exact failsUnder_scanChoice h c
  | series s =>
    exact (failsUnder_scanTuple h s.record.members).bind fun values =>
      (failsUnder_scanChoices h s.record.choice s.record.min).bind fun entries =>
        .pure (s.record.ofParts (values, entries))

end Members

/-! ### Levels -/

/-- **A fatal error names the limit.** By induction on the levels that the limit leaves. -/
theorem scanLevels_failsUnder (denyUnknown : Bool) (limit levels : Nat) (t : Content)
    (e : Element) (err : Error) (herr : scanLevels denyUnknown limit levels t e = .error err) :
    FitsLimit limit err := by
  induction levels generalizing t e err with
  | zero =>
    cases herr
    exact fun _ => rfl
  | succ n ih =>
    let site : Site := { element := e, denyUnknown, limit, below := n }
    exact fitsLimit_scanElement site (failsUnder_scanContent ih t) herr

end GuestXml.Schema
