import GuestXml.Proofs.Reading.Steps
import GuestXml.Proofs.Xml.Tree

/-!
# The limit on nesting while a value is read

A scan under a low limit does what the scan under a higher one does, until it fails with the
error of its own limit (`CutFrom`). That error is fatal, so no alternative and no repetition
takes it for a value that does not fit. It is never met if the elements below are no higher
than the levels that are left (`Site.Roomy`). Both facts are kept by every step and so hold of
whole elements: `scanLevels_cut`.
-/

namespace GuestXml.Schema

open Xml (Element)

/-! ### Two limits -/

/-- The same element under the same conditions, with room for at least as many levels. -/
structure Site.Under (site site' : Site) : Prop where
  element : site.element = site'.element
  denyUnknown : site.denyUnknown = site'.denyUnknown
  below : site.below ≤ site'.below

/-- The elements below are no higher than the levels that are left. -/
def Site.Roomy (site : Site) : Prop :=
  ∀ c ∈ site.element.childElements, c.height ≤ site.below

/-- What is left in a scan are children of the element. -/
def Site.Holds (site : Site) (s : Scan) : Prop :=
  ∀ c ∈ s.rest, c ∈ site.element.childElements

/-- What a scan comes to under the limit of a site and under a higher one. -/
inductive CutFrom {α : Type} (site : Site) :
    (low high : Except Error (α × Scan)) → Prop where
  | ok {a : α} {s : Scan} (h : site.Holds s) : CutFrom site (.ok (a, s)) (.ok (a, s))
  | error {e : Error} (h : site.Roomy → ∀ l, e ≠ .depthExceeded l) :
    CutFrom site (.error e) (.error e)
  | cut (h : ¬site.Roomy) (high : Except Error (α × Scan)) :
    CutFrom site (.error (.depthExceeded site.limit)) high

/-- The limit of a site only cuts a scan. -/
def Cuts {α : Type} (site : Site) (low high : ScanM α) : Prop :=
  ∀ s, site.Holds s → CutFrom site (low s) (high s)

/-- What an element comes to on a number of levels under a limit, and on more levels under a
higher one. -/
structure CutAt {α : Type} (levels limit : Nat) (e : Element)
    (low high : Except Error (α × Nat)) : Prop where
  eq : low = high ∨ low = .error (.depthExceeded limit)
  error : e.height ≤ levels → ∀ l, low ≠ .error (.depthExceeded l)

/-! ### Combining scans -/

section Combining

variable {α β : Type} {site : Site}

theorem CutFrom.bind {low high : ScanM α} {low' high' : α → ScanM β} {s : Scan}
    (h : CutFrom site (low s) (high s))
    (h' : ∀ a s', low s = .ok (a, s') → site.Holds s' →
      CutFrom site (low' a s') (high' a s')) :
    CutFrom site ((low >>= low') s) ((high >>= high') s) := by
  generalize hlow : low s = low₁, hhigh : high s = high₁ at h
  cases h with
  | ok hs' =>
    rw [ScanM.bind_of_ok hlow, ScanM.bind_of_ok hhigh]
    exact h' _ _ hlow hs'
  | error he =>
    rw [ScanM.bind_of_error hlow, ScanM.bind_of_error hhigh]
    exact .error he
  | cut hroomy =>
    rw [ScanM.bind_of_error hlow]
    exact .cut hroomy _

namespace Cuts

theorem bind {low high : ScanM α} {low' high' : α → ScanM β} (h : Cuts site low high)
    (h' : ∀ a, Cuts site (low' a) (high' a)) : Cuts site (low >>= low') (high >>= high') :=
  fun s hs => (h s hs).bind fun a s' _ hs' => h' a s' hs'

theorem pure (a : α) : Cuts site (pure a) (pure a) :=
  fun _ hs => .ok hs

theorem map {low high : ScanM α} (f : α → β) (h : Cuts site low high) :
    Cuts site (f <$> low) (f <$> high) := by
  rw [map_eq_pure_bind, map_eq_pure_bind]
  exact h.bind fun a => .pure (f a)

theorem mapM {γ : Type} {low high : γ → ScanM α} {cs : List γ}
    (h : ∀ c ∈ cs, Cuts site (low c) (high c)) : Cuts site (cs.mapM low) (cs.mapM high) := by
  induction cs with
  | nil => exact .pure []
  | cons c cs ih =>
    rw [List.mapM_cons, List.mapM_cons]
    exact (h c List.mem_cons_self).bind fun a =>
      (ih fun c' hc' => h c' (List.mem_cons_of_mem c hc')).bind fun as => .pure (a :: as)

/-- A step that takes no child does not look at the limit. -/
theorem idle {scan : ScanM α} (h : Idle scan) : Cuts site scan scan := by
  intro s hs
  rcases h s with ⟨e, he, hfatal⟩ | ⟨a, ha⟩
  · rw [he]
    refine .error fun _ l hl => ?_
    rw [hl] at hfatal
    cases hfatal
  · rw [ha]
    exact .ok hs

/-- A repetition stops where it would without the limit, or at the limit. -/
theorem whileTaken {low high : ScanM α} (h : Cuts site low high) (most : Nat) :
    Cuts site (scanWhileTaken low most) (scanWhileTaken high most) := by
  induction most with
  | zero => exact .pure []
  | succ n ih =>
    intro s hs
    unfold scanWhileTaken
    split
    · exact .ok hs
    · have hcut := h s hs
      generalize low s = low₁, high s = high₁ at hcut
      cases hcut with
      | ok hs' =>
        dsimp only
        split
        · exact .ok hs'
        · exact ih.map _ _ hs'
      | error he =>
        dsimp only
        split
        · exact .error he
        · exact .ok hs
      | cut hroomy => exact .cut hroomy _

end Cuts

end Combining

/-! ### Children -/

section Children

variable {α β : Type} {site site' : Site} (hsite : site.Under site')

include hsite

/-- An element is cut where its members are. -/
theorem scanElement_cut {low high : ScanM α} (h : Cuts site low high) :
    CutAt (site.below + 1) site.limit site.element (scanElement site low)
      (scanElement site' high) := by
  have hcut := h { rest := site.element.childElements } fun c hc => hc
  have hend : scanEnd site' = scanEnd site := by
    have hfault : ∀ s : Scan, s.fault? site' = s.fault? site := by
      intro s
      funext c
      simp only [Scan.fault?, hsite.element, hsite.denyUnknown]
    funext s
    simp only [scanEnd, hfault]
  generalize hlow : low { rest := site.element.childElements } = low₁,
    hhigh : high { rest := site.element.childElements } = high₁ at hcut
  have hroomy : site.element.height ≤ site.below + 1 ↔ site.Roomy := Element.height_le_succ_iff
  cases hcut with
  | ok hs =>
    rw [scanElement_of_ok hlow, scanElement_of_ok (hsite.element ▸ hhigh), hend]
    refine ⟨.inl rfl, fun _ l => ?_⟩
    unfold scanEnd
    cases hfault : List.findSome? _ _ with
    | none =>
      intro hl
      cases hl
    | some e =>
      intro hl
      obtain rfl := Except.error.inj hl
      obtain ⟨c, -, hc⟩ := List.exists_of_findSome?_eq_some hfault
      unfold Scan.fault? at hc
      split at hc
      · cases hc
      · split at hc <;> cases hc
  | error he =>
    rw [scanElement_of_error hlow, scanElement_of_error (hsite.element ▸ hhigh)]
    refine ⟨.inl rfl, fun hheight l hl => ?_⟩
    exact he (hroomy.mp hheight) l (Except.error.inj hl)
  | cut hnot =>
    rw [scanElement_of_error hlow]
    exact ⟨.inr rfl, fun hheight => absurd (hroomy.mp hheight) hnot⟩

/-- A child is cut if there is no level left for it or its content is cut. -/
theorem scanChild_cuts {e : Element} (he : e ∈ site.element.childElements)
    {low high : Except Error (α × Nat)} (h : CutAt site.below site.limit e low high) :
    Cuts site (scanChild site low) (scanChild site' high) := by
  intro s hs
  have hpos := e.height_pos
  have hbelow := hsite.below
  unfold scanChild
  by_cases hzero : site.below = 0
  · rw [if_pos hzero]
    refine .cut (fun hroomy => ?_) _
    have := hroomy e he
    omega
  · rw [if_neg hzero, if_neg (by omega)]
    rcases h.eq with hsame | hdeep
    · rw [← hsame]
      cases low with
      | ok p => exact .ok fun c hc => hs c (List.mem_of_mem_tail hc)
      | error err =>
        refine .error fun hroomy l hl => h.error (hroomy e he) l ?_
        rw [hl]
    · rw [hdeep]
      refine .cut (fun hroomy => ?_) _
      exact h.error (hroomy e he) _ hdeep

/-- A scalar or a flag is read without a look at the limit. -/
theorem scanScalar_cut (e : Element) {scan : ScanM α} (h : Idle scan) :
    CutAt site.below site.limit e (scanElement (site.child e) scan)
      (scanElement (site'.child e) scan) := by
  have hchild : (site.child e).Under (site'.child e) :=
    ⟨rfl, hsite.denyUnknown, Nat.sub_le_sub_right hsite.below 1⟩
  have hcut := scanElement_cut hchild (.idle h)
  refine ⟨hcut.eq, fun hheight => hcut.error ?_⟩
  have hpos := e.height_pos
  show e.height ≤ site.below - 1 + 1
  omega

theorem scanMin_cuts (name : String) (min found : Nat) :
    Cuts site (scanMin site name min found) (scanMin site' name min found) := by
  have hsame : scanMin site' name min found = scanMin site name min found := by
    simp only [scanMin, hsite.element]
  rw [hsame]
  intro s hs
  unfold scanMin
  split
  · exact .error fun _ _ => nofun
  · exact .ok hs

omit hsite in
theorem scanNext?_cuts (name : String) : Cuts site (scanNext? name) (scanNext? name) :=
  fun s hs => .ok fun c hc => hs c (by simpa using hc)

/-- A required child is looked for and read. -/
theorem scanRequired_cuts {low high : Element → Except Error (α × Nat)} (name : String)
    (h : ∀ e, CutAt site.below site.limit e (low e) (high e)) :
    Cuts site (do scanChild site (low (← scanRequired site name)))
      (do scanChild site' (high (← scanRequired site' name))) := by
  have hsame : scanRequired site' name = scanRequired site name := by
    simp only [scanRequired, hsite.element]
  intro s hs
  rw [hsame]
  have hlook : CutFrom site (scanRequired site name s) (scanRequired site name s) := by
    refine ((scanNext?_cuts name s hs).bind fun e? s' _ hs' => ?_)
    cases e? with
    | none => exact .error fun _ _ => nofun
    | some e => exact .ok hs'
  refine hlook.bind fun e s' he hs' => ?_
  obtain ⟨-, -, more, hrest⟩ := scanRequired_eq_ok he
  exact scanChild_cuts hsite (hs e (hrest ▸ List.mem_cons_self)) (h e) s' hs'

/-- A child that may be missing is looked for and read. -/
theorem scanOptional_cuts {low high : Element → Except Error (α × Nat)} (name : String)
    (h : ∀ e, CutAt site.below site.limit e (low e) (high e)) (f : α → β) (b : β) :
    Cuts site
      (do match ← scanNext? name with
          | some e => f <$> scanChild site (low e)
          | none => return b)
      (do match ← scanNext? name with
          | some e => f <$> scanChild site' (high e)
          | none => return b) := by
  intro s hs
  refine (scanNext?_cuts name s hs).bind fun e? s' he hs' => ?_
  cases e? with
  | none => exact .ok hs'
  | some e =>
    obtain ⟨-, -, more, hrest⟩ := scanNext?_eq_some he
    exact (scanChild_cuts hsite (hs e (hrest ▸ List.mem_cons_self)) (h e)).map f s' hs'

/-- All children of a name are looked for and read. -/
theorem scanMany_cuts {low high : Element → Except Error (α × Nat)} (name : String)
    (h : ∀ e, CutAt site.below site.limit e (low e) (high e)) (min : Nat) :
    Cuts site
      (do let values ← (← scanAll name).mapM fun e => scanChild site (low e)
          scanMin site name min values.length
          return values)
      (do let values ← (← scanAll name).mapM fun e => scanChild site' (high e)
          scanMin site' name min values.length
          return values) := by
  intro s hs
  have hlook : CutFrom site (scanAll name s) (scanAll name s) :=
    .ok fun c hc => hs c (by simpa using hc)
  refine hlook.bind fun es s' hes hs' => ?_
  obtain ⟨-, -, more, hrest⟩ := scanAll_eq_ok hes
  refine (Cuts.mapM fun e he => scanChild_cuts hsite (hs e ?_) (h e)).bind (fun values => ?_) s' hs'
  · rw [hrest]
    exact List.mem_append_left _ he
  · exact (scanMin_cuts hsite name min values.length).bind fun _ => .pure values

end Children

/-! ### Members and alternatives -/

section Members

variable {site site' : Site} (hsite : site.Under site')
  {low high : (t : Content) → Element → Except Error (t.Carrier × Nat)}
  (h : ∀ t e, CutAt site.below site.limit e (low t e) (high t e))

include hsite h

theorem scanField_cuts (f : Field) : Cuts site (scanField site low f) (scanField site' high f) := by
  by_cases hchild : f.childName? = none
  · have hsame : scanField site' high f = scanField site low f := by
      cases f with
      | attr | optionalAttr | constant | text | optionalText =>
        simp only [scanField, hsite.element]
      | noContent =>
        simp only [scanField]
        unfold scanNoContent
        rw [hsite.element]
      | _ => cases hchild
    rw [hsame]
    exact .idle (scanField_idle hchild)
  · have hvalue : ∀ (s : Scalar) (e : Element),
        CutAt site.below site.limit e (scanValue site s e) (scanValue site' s e) := fun s e =>
      scanScalar_cut hsite e (.decode s e.text)
    have hflag : ∀ e, CutAt site.below site.limit e (scanFlag site e) (scanFlag site' e) :=
      fun e => scanScalar_cut hsite e (.pure ())
    cases f with
    | valueElement name s => exact scanRequired_cuts hsite name (hvalue s)
    | optionalValueElement name s => exact scanOptional_cuts hsite name (hvalue s) some none
    | valueElements name min s => exact scanMany_cuts hsite name (hvalue s) min
    | flag name => exact scanOptional_cuts hsite name hflag (fun _ => true) false
    | element name t => exact scanRequired_cuts hsite name (h t)
    | optionalElement name t => exact scanOptional_cuts hsite name (h t) some none
    | elements name min t => exact scanMany_cuts hsite name (h t) min
    | _ => exact absurd rfl hchild

theorem scanTuple_cuts (ms : List Member) :
    Cuts site (scanTuple site low ms) (scanTuple site' high ms) := by
  induction ms with
  | nil => exact .pure ()
  | cons m ms ih =>
    exact (scanField_cuts hsite h m.field).bind fun v => ih.bind fun vs => .pure (v, vs)

theorem scanGroup_cuts (g : Group) : Cuts site (scanGroup site low g) (scanGroup site' high g) :=
  (scanTuple_cuts hsite h g.record.members).bind fun vs => .pure (g.record.ofTuple vs)

theorem scanAlternative_cuts (a : Alternative) :
    Cuts site (scanAlternative site low a) (scanAlternative site' high a) := by
  cases a with
  | group name g => exact scanGroup_cuts hsite h g
  | element name tag t => exact scanRequired_cuts hsite tag (h t)

/-- An alternative that is cut ends the search. -/
theorem scanFirst_cuts (choice : String) (as : List Alternative) :
    Cuts site (scanFirst site low choice as) (scanFirst site' high choice as) := by
  induction as with
  | nil =>
    have hsame : scanFirst site' high choice [] = scanFirst site low choice [] := by
      simp only [scanFirst, hsite.element]
    rw [hsame]
    exact .idle (.fail rfl)
  | cons a as ih =>
    intro s hs
    have hcut := scanAlternative_cuts hsite h a s hs
    generalize hlow : scanAlternative site low a s = low₁,
      hhigh : scanAlternative site' high a s = high₁ at hcut
    cases hcut with
    | ok hs' =>
      rw [scanFirst_of_ok hlow, scanFirst_of_ok hhigh]
      exact .ok hs'
    | @error e he =>
      cases hfatal : e.isFatal with
      | true =>
        rw [scanFirst_of_fatal hlow hfatal, scanFirst_of_fatal hhigh hfatal]
        exact .error he
      | false =>
        rw [scanFirst_of_error hlow hfatal, scanFirst_of_error hhigh hfatal]
        exact ih.map Sum.inr s hs
    | cut hroomy =>
      rw [scanFirst_of_fatal hlow rfl]
      exact .cut hroomy _

theorem scanChoice_cuts (c : Choice) :
    Cuts site (scanChoice site low c) (scanChoice site' high c) :=
  (scanFirst_cuts hsite h c.name c.variants.alternatives).bind fun v =>
    .pure (c.variants.ofAny v)

theorem scanChoices_cuts (c : Choice) (min : Nat) :
    Cuts site (scanChoices site low c min) (scanChoices site' high c min) := by
  intro s hs
  unfold scanChoices scanChoicesFrom
  cases c.tags? with
  | some tags =>
    exact (Cuts.mapM fun _ _ => scanChoice_cuts hsite h c).bind
      (fun values => (scanMin_cuts hsite c.name min values.length).bind fun _ => .pure values) s hs
  | none =>
    exact ((scanChoice_cuts hsite h c).whileTaken _).bind
      (fun values => (scanMin_cuts hsite c.name min values.length).bind fun _ => .pure values) s hs

theorem scanContent_cuts (t : Content) :
    Cuts site (scanContent site low t) (scanContent site' high t) := by
  cases t with
  | group g => exact scanGroup_cuts hsite h g
  | choice c => exact scanChoice_cuts hsite h c
  | series s =>
    exact (scanTuple_cuts hsite h s.record.members).bind fun values =>
      (scanChoices_cuts hsite h s.record.choice s.record.min).bind fun entries =>
        .pure (s.record.ofParts (values, entries))

end Members

/-! ### Levels -/

/-- **A limit only cuts.** By induction on the levels that are left under the lower limit. -/
theorem scanLevels_cut (denyUnknown : Bool) {limit limit' levels levels' : Nat}
    (hlevels : levels ≤ levels') (t : Content) (e : Element) :
    CutAt levels limit e (scanLevels denyUnknown limit levels t e)
      (scanLevels denyUnknown limit' levels' t e) := by
  induction levels generalizing levels' t e with
  | zero =>
    have hpos := e.height_pos
    exact ⟨.inr rfl, fun hheight => by omega⟩
  | succ n ih =>
    obtain ⟨n', rfl⟩ := Nat.exists_eq_add_of_le' (Nat.le_trans (Nat.le_add_left 1 n) hlevels)
    let site : Site := { element := e, denyUnknown, limit, below := n }
    let site' : Site := { element := e, denyUnknown, limit := limit', below := n' }
    have hsite : site.Under site' := ⟨rfl, rfl, Nat.le_of_succ_le_succ hlevels⟩
    exact scanElement_cut hsite (scanContent_cuts hsite (fun t' c => ih hsite.below t' c) t)

end GuestXml.Schema
