import GuestXml.Proofs.Reading.Position
import GuestXml.Proofs.Reading.Scan
import GuestXml.Schema.Document

/-!
# Readers do what scanners say

A reading shows a scan (`Reading.Shows`) if it stands on the scan's element with the same
children left, and has consumed and asked for the same there. A reader follows a scanner
(`Follows`) if from a shown scan it comes to the same result, and to a reading that shows the
scan's outcome; if it fails it has stayed within the element. The attempts of a choice
follow their scanners and leave no trace where they fail (`FollowsUndone`).

The relation goes through every reader, so that a document is loaded exactly as its scan says
(`Content.readRoot_eq_scan`).
-/

namespace GuestXml.Schema

open Xml (Element)

/-- A reading that stands where a scan does. Elements consumed before the element was
entered are the reading's base. -/
structure Reading.Shows (r : Reading) (site : Site) (base : Nat) (s : Scan) : Prop where
  element : r.cursor.top.element = site.element
  denyUnknown : r.denyUnknown = site.denyUnknown
  limit : r.cursor.maxDepth = site.limit
  depth : r.cursor.depth + site.below = r.cursor.maxDepth
  rest : r.cursor.remaining = s.rest
  consumed : r.consumed = base + s.consumed
  asked : (r.requested.takeWhile (·.1 == r.cursor.depth)).map (·.2) = s.asked
  tidy : r.Tidy

section Relations

variable {α β : Type}

/-- The reader comes to the scanner's result, and a failure stays within the element. -/
def Follows (site : Site) (read : ReadM α) (scan : ScanM α) : Prop :=
  ∀ r base s, r.Shows site base s →
    match scan s with
    | .ok (a, s') => ∃ r', read r = (.ok a, r') ∧ r.Within r' ∧ r'.Shows site base s'
    | .error e => ∃ r', read r = (.error e, r') ∧ r.Within r'

/-- The reader comes to the scanner's result, and a failure changes nothing. -/
def FollowsUndone (site : Site) (read : ReadM α) (scan : ScanM α) : Prop :=
  ∀ r base s, r.Shows site base s →
    match scan s with
    | .ok (a, s') => ∃ r', read r = (.ok a, r') ∧ r.Within r' ∧ r'.Shows site base s'
    | .error e => read r = (.error e, r)

/-- The reader, run in an element just entered, comes to the result of that element. -/
def Enters (site : Site) (read : ReadM α) (result : Except Error (α × Nat)) : Prop :=
  ∀ r base, r.Shows site base { rest := site.element.childElements } →
    match result with
    | .ok (a, n) => ∃ r', read r = (.ok a, r') ∧ r.Within r' ∧ r'.consumed = base + n
    | .error e => ∃ r', read r = (.error e, r') ∧ r.Within r'

end Relations

/-! ### Readings and scans -/

namespace Reading.Shows

variable {r r' : Reading} {site : Site} {base : Nat} {s : Scan}

theorem current (h : r.Shows site base s) : r.current = site.element :=
  h.element

/-- After a step within the element, only what the step may change has to be looked at. -/
theorem of_within (h : r.Shows site base s) (hw : r.Within r') {s' : Scan}
    (hrest : r'.cursor.remaining = s'.rest) (hconsumed : r'.consumed = base + s'.consumed)
    (hasked : (r'.requested.takeWhile (·.1 == r'.cursor.depth)).map (·.2) = s'.asked) :
    r'.Shows site base s' where
  element := hw.element.trans h.element
  denyUnknown := hw.denyUnknown.trans h.denyUnknown
  limit := hw.maxDepth.trans h.limit
  depth := by rw [hw.depth, hw.maxDepth]; exact h.depth
  rest := hrest
  consumed := hconsumed
  asked := hasked
  tidy := hw.tidy h.tidy

theorem wasRequested (h : r.Shows site base s) (name : String) :
    r.wasRequested name = s.asked.contains name := by
  rw [← h.asked, Reading.wasRequested, List.contains_eq_any_beq, List.any_map]
  exact congrArg _ (funext fun p => Bool.beq_comm)

theorem fault? (h : r.Shows site base s) : r.fault? = s.fault? site := by
  funext c
  simp only [Reading.fault?, Scan.fault?, h.wasRequested, h.current, h.denyUnknown]

theorem leftover? (h : r.Shows site base s) : r.leftover? = s.rest.findSome? (s.fault? site) := by
  rw [Reading.leftover?, h.rest, h.fault?]

/-- Asking for a name in a reading and in a scan. -/
theorem request (h : r.Shows site base s) (name : String) :
    r.Within (r.request name) ∧ (r.request name).Shows site base (s.ask name) := by
  have hhead : r.requested.head? = some (r.cursor.depth, name) ↔ s.asked.head? = some name := by
    rw [← h.asked]
    cases hreq : r.requested with
    | nil => simp
    | cons p ps =>
      obtain ⟨depth, other⟩ := p
      by_cases hdepth : depth = r.cursor.depth
      · simp [hdepth]
      · simp [hdepth]
  have hkeep : ∀ s' : Scan, s' = s → r.Shows site base s' := fun s' hs' => hs' ▸ h
  unfold Reading.request Scan.ask
  by_cases hasked : s.asked.head? = some name
  · rw [if_pos (hhead.mpr hasked), if_pos hasked]
    exact ⟨.refl r, h⟩
  · rw [if_neg (fun hr => hasked (hhead.mp hr)), if_neg hasked]
    have hw : r.Within { r with requested := (r.cursor.depth, name) :: r.requested } :=
      ⟨rfl, rfl, rfl, rfl, [(r.cursor.depth, name)], rfl, by simp⟩
    exact ⟨hw, h.of_within hw h.rest h.consumed (by simp [h.asked])⟩

/-- Stepping into a child starts a scan of that child. -/
theorem inside (h : r.Shows site base s) (hbelow : 0 < site.below) (e : Element) :
    (r.inside e).Shows (site.child e) (base + s.consumed) { rest := e.childElements } where
  element := rfl
  denyUnknown := h.denyUnknown
  limit := h.limit
  depth := by
    have hdepth := h.depth
    show r.cursor.depth + 1 + (site.below - 1) = r.cursor.maxDepth
    omega
  rest := rfl
  consumed := h.consumed
  asked := by
    have htop : ∀ p ∈ r.requested, ¬ p.1 = r.cursor.depth + 1 := by
      intro p hp
      have hle := h.tidy p hp
      omega
    show (r.requested.takeWhile (·.1 == r.cursor.depth + 1)).map (·.2) = []
    cases hreq : r.requested with
    | nil => rfl
    | cons p ps => simp [htop p (by simp [hreq])]
  tidy := fun p hp => Nat.le_succ_of_le (h.tidy p hp)

end Reading.Shows

/-! ### Combining steps -/

section Combining

variable {α β : Type} {site : Site}

namespace Follows

theorem pure (a : α) : Follows site (pure a) (pure a) :=
  fun r _ _ hs => ⟨r, rfl, .refl r, hs⟩

theorem ofExcept (result : Except Error α) :
    Follows site (Fallible.ofExcept result) (.ofExcept result) := by
  intro r base s hs
  cases result with
  | ok a => exact ⟨r, rfl, .refl r, hs⟩
  | error e => exact ⟨r, rfl, .refl r⟩

theorem fail (e : Error) : Follows site (Fallible.fail e : ReadM α) (.fail e) :=
  fun r _ _ _ => ⟨r, rfl, .refl r⟩

/-- A look at the reading is settled by what every reading at the site has in common. -/
theorem view (f : Reading → α) {read : α → ReadM β} {scan : ScanM β} (a : α)
    (hf : ∀ r base s, r.Shows site base s → f r = a) (h : Follows site (read a) scan) :
    Follows site (Fallible.view f >>= read) scan := by
  intro r base s hs
  have hrun : (Fallible.view f >>= read) r = read a r := by
    show read (f r) r = _
    rw [hf r base s hs]
  rw [hrun]
  exact h r base s hs

theorem bind {read : ReadM α} {scan : ScanM α} {read' : α → ReadM β} {scan' : α → ScanM β}
    (h : Follows site read scan) (h' : ∀ a, Follows site (read' a) (scan' a)) :
    Follows site (read >>= read') (scan >>= scan') := by
  intro r base s hs
  have hfirst := h r base s hs
  cases hscan : scan s with
  | error e =>
    simp only [hscan] at hfirst
    obtain ⟨r', hr', hw⟩ := hfirst
    rw [ScanM.bind_of_error hscan]
    exact ⟨r', Fallible.bind_of_error hr', hw⟩
  | ok p =>
    obtain ⟨a, s'⟩ := p
    simp only [hscan] at hfirst
    obtain ⟨r', hr', hw, hs'⟩ := hfirst
    rw [ScanM.bind_of_ok hscan, Fallible.bind_of_ok hr']
    have hsecond := h' a r' base s' hs'
    cases hscan' : scan' a s' with
    | error e =>
      simp only [hscan'] at hsecond
      obtain ⟨r'', hr'', hw'⟩ := hsecond
      exact ⟨r'', hr'', hw.trans hw'⟩
    | ok p =>
      obtain ⟨b, s''⟩ := p
      simp only [hscan'] at hsecond
      obtain ⟨r'', hr'', hw', hs''⟩ := hsecond
      exact ⟨r'', hr'', hw.trans hw', hs''⟩

theorem map {read : ReadM α} {scan : ScanM α} (f : α → β) (h : Follows site read scan) :
    Follows site (f <$> read) (f <$> scan) := by
  rw [map_eq_pure_bind, map_eq_pure_bind]
  exact h.bind fun a => .pure (f a)

theorem mapM {γ : Type} {read : γ → ReadM α} {scan : γ → ScanM α}
    (h : ∀ c, Follows site (read c) (scan c)) (cs : List γ) :
    Follows site (cs.mapM read) (cs.mapM scan) := by
  induction cs with
  | nil =>
    rw [List.mapM_nil, List.mapM_nil]
    exact .pure []
  | cons c cs ih =>
    rw [List.mapM_cons, List.mapM_cons]
    exact (h c).bind fun a => ih.bind fun as => .pure (a :: as)

end Follows

theorem FollowsUndone.follows {read : ReadM α} {scan : ScanM α}
    (h : FollowsUndone site read scan) : Follows site read scan := by
  intro r base s hs
  have hrun := h r base s hs
  cases hscan : scan s with
  | error e =>
    simp only [hscan] at hrun
    exact ⟨r, hrun, .refl r⟩
  | ok p =>
    simp only [hscan] at hrun
    exact hrun

/-- What was read is what the scanner came to. -/
theorem Follows.of_ok {read : ReadM α} {scan : ScanM α} (h : Follows site read scan)
    {r r' : Reading} {base : Nat} {s : Scan} (hs : r.Shows site base s) {a : α}
    (ha : read r = (.ok a, r')) :
    ∃ s', scan s = .ok (a, s') ∧ r.Within r' ∧ r'.Shows site base s' := by
  have hrun := h r base s hs
  cases hscan : scan s with
  | error e =>
    simp only [hscan] at hrun
    obtain ⟨r'', hr'', -⟩ := hrun
    cases ha.symm.trans hr''
  | ok p =>
    simp only [hscan] at hrun
    obtain ⟨r'', hr'', hw, hs'⟩ := hrun
    cases ha.symm.trans hr''
    exact ⟨p.2, rfl, hw, hs'⟩

/-- What failed had the scanner fail, and nothing came of it. -/
theorem FollowsUndone.of_error {read : ReadM α} {scan : ScanM α}
    (h : FollowsUndone site read scan) {r r' : Reading} {base : Nat} {s : Scan}
    (hs : r.Shows site base s) {e : Error} (he : read r = (.error e, r')) :
    scan s = .error e ∧ r' = r := by
  have hrun := h r base s hs
  cases hscan : scan s with
  | error e' =>
    simp only [hscan] at hrun
    cases he.symm.trans hrun
    exact ⟨rfl, rfl⟩
  | ok p =>
    simp only [hscan] at hrun
    obtain ⟨r'', hr'', -⟩ := hrun
    cases he.symm.trans hr''

/-- An attempt undoes what a failing reader did. -/
theorem Follows.attempt {read : ReadM α} {scan : ScanM α} (h : Follows site read scan) :
    FollowsUndone site (attempt read) scan := by
  intro r base s hs
  have hrun := h r base s hs
  cases hscan : scan s with
  | error e =>
    simp only [hscan] at hrun
    obtain ⟨r', hr', hw⟩ := hrun
    simp only [Schema.attempt, hr', Reading.rewind_mark hw]
  | ok p =>
    simp only [hscan] at hrun
    obtain ⟨r', hr', hw, hs'⟩ := hrun
    exact ⟨r', by simp only [Schema.attempt, hr'], hw, hs'⟩

/-- A child is entered, read on its own and left again. -/
theorem Enters.withChild {read : ReadM α} {result : Except Error (α × Nat)} {e : Element}
    (h : Enters (site.child e) read result) :
    Follows site (withChild e read) (scanChild site result) := by
  intro r base s hs
  have hdepth := hs.depth
  have hlimit := hs.limit
  by_cases hbelow : site.below = 0
  · have hfull : r.cursor.maxDepth ≤ r.cursor.depth := by omega
    simp only [scanChild, hbelow, if_true]
    refine ⟨r, ?_, .refl r⟩
    rw [withChild_of_full hfull, hlimit]
  · have hroom : ¬ r.cursor.maxDepth ≤ r.cursor.depth := by omega
    have hrun := h (r.inside e) (base + s.consumed) (hs.inside (by omega) e)
    cases result with
    | error err =>
      obtain ⟨r', hr', hw⟩ := hrun
      simp only [scanChild, hbelow, if_false, Except.map]
      refine ⟨r'.leave, withChild_of_error hroom hr', ?_⟩
      rw [Reading.leave_eq hs.tidy hw]
      exact ⟨rfl, rfl, rfl, rfl, [], rfl, by simp⟩
    | ok p =>
      obtain ⟨a, n⟩ := p
      obtain ⟨r', hr', hw, hn⟩ := hrun
      simp only [scanChild, hbelow, if_false, Except.map]
      have hwithin : r.Within r'.leave.consume := by
        rw [Reading.leave_eq hs.tidy hw]
        exact ⟨rfl, by simp [Reading.consume, Cursor.advance], rfl, rfl, [], rfl, by simp⟩
      refine ⟨r'.leave.consume, withChild_of_ok hroom hr', hwithin,
        hs.of_within hwithin ?_ ?_ ?_⟩
      · rw [Reading.leave_eq hs.tidy hw]
        show r.cursor.top.advance.remaining = s.rest.tail
        rw [Frame.remaining_advance, ← hs.rest]
        rfl
      · rw [Reading.leave_eq hs.tidy hw]
        show r'.consumed + 1 = base + (s.consumed + n + 1)
        omega
      · rw [Reading.leave_eq hs.tidy hw]
        exact hs.asked

/-- To read an element is to read its members and then to look at what is left over. -/
theorem Follows.enters {read : ReadM α} {scan : ScanM α} (h : Follows site read scan)
    (hfinish : Follows site finishElement (scanEnd site)) :
    Enters site (do let a ← read; finishElement; return a) (scanElement site scan) := by
  intro r base hs
  have hrun := (h.bind fun a => hfinish.bind fun _ => .pure a) r base _ hs
  unfold scanElement
  cases hscan : (do let a ← scan; scanEnd site; return a : ScanM α)
      { rest := site.element.childElements } with
  | error e =>
    simp only [hscan] at hrun
    exact hrun
  | ok p =>
    obtain ⟨a, s'⟩ := p
    simp only [hscan] at hrun
    obtain ⟨r', hr', hw, hs'⟩ := hrun
    exact ⟨r', hr', hw, hs'.consumed⟩

end Combining

/-! ### Steps -/

section Steps

variable {α : Type} (site : Site)

theorem finishElement_follows : Follows site finishElement (scanEnd site) := by
  intro r base s hs
  unfold finishElement scanEnd
  rw [hs.leftover?]
  cases s.rest.findSome? (s.fault? site) with
  | none => exact ⟨r, rfl, .refl r, hs⟩
  | some e => exact ⟨r, rfl, .refl r⟩

theorem checkMin_follows (name : String) (min found : Nat) :
    Follows site (checkMin name min found) (scanMin site name min found) := by
  intro r base s hs
  unfold checkMin scanMin
  rw [hs.current]
  by_cases h : found < min
  · simp only [if_pos h, ScanM.fail_apply]
    exact ⟨r, rfl, .refl r⟩
  · simp only [if_neg h, ScanM.pure_apply]
    exact ⟨r, rfl, .refl r, hs⟩

theorem nextNamed?_follows (name : String) :
    Follows site (nextNamed? name) (scanNext? name) := by
  intro r base s hs
  obtain ⟨hw, hs'⟩ := hs.request name
  refine ⟨r.request name, ?_, hw, hs'⟩
  rw [nextNamed?, Cursor.peek?, hs.rest]

theorem allNamed_follows (name : String) : Follows site (allNamed name) (scanAll name) := by
  intro r base s hs
  obtain ⟨hw, hs'⟩ := hs.request name
  refine ⟨r.request name, ?_, hw, hs'⟩
  rw [allNamed, hs.rest]

theorem requireNamed_follows (name : String) :
    Follows site (requireNamed name) (scanRequired site name) := by
  refine (nextNamed?_follows site name).bind fun child? => ?_
  cases child? with
  | some child => exact .pure child
  | none =>
    intro r base s hs
    refine ⟨r, ?_, .refl r⟩
    show missing name r = _
    rw [missing, hs.current]

theorem readValue_enters (s : Scalar) (e : Element) :
    Enters (site.child e) (readValue s) (scanValue site s e) := by
  have hread : Follows (site.child e)
      (do Fallible.ofExcept (s.decode (← Fallible.view (·.current.text))) : ReadM s.Carrier)
      (.ofExcept (s.decode e.text)) :=
    .view _ e.text (fun _ _ _ hs => congrArg Element.text hs.current) (.ofExcept _)
  have henters := hread.enters (finishElement_follows (site.child e))
  rw [bind_assoc] at henters
  exact henters

theorem finishElement_enters (e : Element) :
    Enters (site.child e) finishElement (scanFlag site e) := by
  have hread : Follows (site.child e) (pure ()) (pure ()) := .pure ()
  have henters := hread.enters (finishElement_follows (site.child e))
  rw [pure_bind, bind_pure_unit] at henters
  exact henters

theorem readNoContent_follows : Follows site readNoContent (scanNoContent site) := by
  intro r base s hs
  unfold readNoContent scanNoContent
  simp only [hs.current, hs.rest]
  rcases hattributes : site.element.attributes with _ | ⟨⟨name, value⟩, attributes⟩
  case cons => exact ⟨r, rfl, .refl r⟩
  case nil =>
    rcases hrest : s.rest with _ | ⟨extra, rest⟩
    case cons => exact ⟨r, rfl, .refl r⟩
    case nil =>
      by_cases hblank : Text.isBlankText site.element.text = true
      · simp only [if_pos hblank]
        exact ⟨r, rfl, .refl r, hs⟩
      · simp only [if_neg hblank]
        exact ⟨r, rfl, .refl r⟩

end Steps

/-! ### Members and alternatives -/

section Members

variable {site : Site} {child : (t : Content) → ReadM t.Carrier}
  {childScan : (t : Content) → Element → Except Error (t.Carrier × Nat)}

/-- A child with the name of a member is read as that member says. -/
theorem readRequired_follows {α : Type} {read : ReadM α}
    {scan : Element → Except Error (α × Nat)} (name : String)
    (h : ∀ e, Enters (site.child e) read (scan e)) :
    Follows site (do withChild (← requireNamed name) read)
      (do scanChild site (scan (← scanRequired site name))) :=
  (requireNamed_follows site name).bind fun e => (h e).withChild

theorem readOptional_follows {α β : Type} {read : ReadM α}
    {scan : Element → Except Error (α × Nat)} (name : String) (f : α → β) (b : β)
    (h : ∀ e, Enters (site.child e) read (scan e)) :
    Follows site
      (do match ← nextNamed? name with
          | some e => f <$> withChild e read
          | none => return b)
      (do match ← scanNext? name with
          | some e => f <$> scanChild site (scan e)
          | none => return b) := by
  refine (nextNamed?_follows site name).bind fun child? => ?_
  cases child? with
  | some e => exact (h e).withChild.map f
  | none => exact .pure b

theorem readMany_follows {α : Type} {read : ReadM α}
    {scan : Element → Except Error (α × Nat)} (name : String) (min : Nat)
    (h : ∀ e, Enters (site.child e) read (scan e)) :
    Follows site
      (do let values ← (← allNamed name).mapM fun e => withChild e read
          checkMin name min values.length
          return values)
      (do let values ← (← scanAll name).mapM fun e => scanChild site (scan e)
          scanMin site name min values.length
          return values) := by
  refine (allNamed_follows site name).bind fun es => ?_
  refine (Follows.mapM (fun e => (h e).withChild) es).bind fun values => ?_
  exact (checkMin_follows site name min values.length).bind fun _ => .pure values

theorem readField_follows (h : ∀ t e, Enters (site.child e) (child t) (childScan t e)) :
    (f : Field) → Follows site (readField child f) (scanField site childScan f)
  | .attr name s => by
    refine .view _ site.element (fun _ _ _ hs => hs.current) ?_
    simp only [scanField]
    cases site.element.attribute? name with
    | some text => exact .ofExcept _
    | none => exact .fail _
  | .optionalAttr name s => by
    refine .view _ (site.element.attribute? name)
      (fun _ _ _ hs => congrArg (Element.attribute? · name) hs.current) ?_
    simp only [scanField]
    cases site.element.attribute? name with
    | some text => exact (Follows.ofExcept _).map some
    | none => exact .pure none
  | .constant name value => by
    refine .view _ site.element (fun _ _ _ hs => hs.current) ?_
    simp only [scanField]
    cases site.element.attribute? name with
    | some found =>
      by_cases hfound : found = value
      · simp only [if_pos hfound]
        exact .pure ()
      · simp only [if_neg hfound]
        exact .fail _
    | none => exact .fail _
  | .text s => .view _ site.element.text
    (fun _ _ _ hs => congrArg Element.text hs.current) (.ofExcept _)
  | .optionalText s => by
    refine .view _ site.element.text (fun _ _ _ hs => congrArg Element.text hs.current) ?_
    simp only [scanField]
    by_cases htext : site.element.text.isEmpty = true
    · simp only [if_pos htext]
      exact .pure none
    · simp only [if_neg htext]
      exact (Follows.ofExcept _).map some
  | .valueElement name s => readRequired_follows name (readValue_enters site s)
  | .optionalValueElement name s =>
    readOptional_follows name some none (readValue_enters site s)
  | .valueElements name min s => readMany_follows name min (readValue_enters site s)
  | .noContent => readNoContent_follows site
  | .flag name => readOptional_follows name (fun _ => true) false (finishElement_enters site)
  | .element name t => readRequired_follows name (h t)
  | .optionalElement name t => readOptional_follows name some none (h t)
  | .elements name min t => readMany_follows name min (h t)

theorem readTuple_follows (h : ∀ t e, Enters (site.child e) (child t) (childScan t e)) :
    (ms : List Member) → Follows site (readTuple child ms) (scanTuple site childScan ms)
  | [] => .pure ()
  | m :: ms => (readField_follows h m.field).bind fun value =>
    (readTuple_follows h ms).bind fun values => .pure (value, values)

theorem readGroup_follows (h : ∀ t e, Enters (site.child e) (child t) (childScan t e))
    (g : Group) : Follows site (readGroup child g) (scanGroup site childScan g) :=
  (readTuple_follows h g.record.members).bind fun values => .pure (g.record.ofTuple values)

theorem readAlternative_follows
    (h : ∀ t e, Enters (site.child e) (child t) (childScan t e)) :
    (a : Alternative) →
      FollowsUndone site (readAlternative child a) (scanAlternative site childScan a)
  | .group _ g => (readGroup_follows h g).attempt
  | .element _ tag t => (readRequired_follows tag (h t)).attempt

/-- A rejected alternative leaves no trace, so the next one starts from the same scan. -/
theorem readFirst_follows (h : ∀ t e, Enters (site.child e) (child t) (childScan t e))
    (choice : String) (as : List Alternative) :
    FollowsUndone site (readFirst child choice as) (scanFirst site childScan choice as) := by
  induction as with
  | nil =>
    intro r base s hs
    show exhausted choice r = _
    rw [exhausted, hs.current]
  | cons a as ih =>
    intro r base s hs
    have hfirst := readAlternative_follows h a r base s hs
    unfold readFirst scanFirst
    cases hscan : scanAlternative site childScan a s with
    | ok p =>
      obtain ⟨value, s'⟩ := p
      simp only [hscan] at hfirst
      obtain ⟨r', hr', hw, hs'⟩ := hfirst
      exact ⟨r', by simp only [hr'], hw, hs'⟩
    | error e =>
      simp only [hscan] at hfirst
      simp only [hfirst]
      by_cases hfatal : e.isFatal = true
      · simp only [if_pos hfatal]
      · simp only [if_neg hfatal]
        have hrest := ih r base s hs
        cases hothers : scanFirst site childScan choice as s with
        | ok p =>
          obtain ⟨value, s'⟩ := p
          simp only [hothers] at hrest
          obtain ⟨r', hr', hw, hs'⟩ := hrest
          rw [ScanM.map_of_ok hothers]
          refine ⟨r', ?_, hw, hs'⟩
          rw [map_eq_pure_bind, Fallible.bind_of_ok hr']
          rfl
        | error e' =>
          simp only [hothers] at hrest
          rw [ScanM.map_of_error hothers]
          show (Sum.inr <$> readFirst child choice as) r = _
          rw [map_eq_pure_bind, Fallible.bind_of_error hrest]

theorem readChoice_follows (h : ∀ t e, Enters (site.child e) (child t) (childScan t e))
    (c : Choice) : FollowsUndone site (readChoice child c) (scanChoice site childScan c) := by
  intro r base s hs
  have hfirst := readFirst_follows h c.name c.variants.alternatives r base s hs
  unfold readChoice scanChoice
  cases hscan : scanFirst site childScan c.name c.variants.alternatives s with
  | ok p =>
    obtain ⟨value, s'⟩ := p
    simp only [hscan] at hfirst
    obtain ⟨r', hr', hw, hs'⟩ := hfirst
    rw [ScanM.bind_of_ok hscan]
    exact ⟨r', Fallible.bind_of_ok hr', hw, hs'⟩
  | error e =>
    simp only [hscan] at hfirst
    rw [ScanM.bind_of_error hscan]
    exact Fallible.bind_of_error hfirst

theorem readWhileTaken_follows {α : Type} {read : ReadM α} {scan : ScanM α}
    (h : FollowsUndone site read scan) (most : Nat) :
    Follows site (readWhileTaken read most) (scanWhileTaken scan most) := by
  induction most with
  | zero => exact .pure []
  | succ n ih =>
    intro r base s hs
    unfold readWhileTaken scanWhileTaken
    rw [hs.rest]
    by_cases hempty : s.rest.isEmpty = true
    · simp only [if_pos hempty]
      exact ⟨r, rfl, .refl r, hs⟩
    · simp only [if_neg hempty]
      have hrun := h r base s hs
      cases hscan : scan s with
      | error e =>
        simp only [hscan] at hrun
        simp only [hrun]
        by_cases hfatal : e.isFatal = true
        · simp only [if_pos hfatal]
          exact ⟨r, rfl, .refl r⟩
        · simp only [if_neg hfatal]
          exact ⟨r, rfl, .refl r, hs⟩
      | ok p =>
        obtain ⟨value, s'⟩ := p
        simp only [hscan] at hrun
        obtain ⟨r', hr', hw, hs'⟩ := hrun
        have hcount : r'.consumed = r.consumed ↔ s'.consumed = s.consumed := by
          rw [hs'.consumed, hs.consumed]
          omega
        simp only [hr', hcount]
        by_cases hstay : s'.consumed = s.consumed
        · simp only [if_pos hstay]
          exact ⟨r', rfl, hw, hs'⟩
        · simp only [if_neg hstay]
          have hmore := ih.map (value :: ·) r' base s' hs'
          cases hothers : ((value :: ·) <$> scanWhileTaken scan n) s' with
          | error e =>
            simp only [hothers] at hmore
            obtain ⟨r'', hr'', hw'⟩ := hmore
            exact ⟨r'', hr'', hw.trans hw'⟩
          | ok p =>
            simp only [hothers] at hmore
            obtain ⟨r'', hr'', hw', hs''⟩ := hmore
            exact ⟨r'', hr'', hw.trans hw', hs''⟩

/-- Reads a choice repeatedly from some children. -/
def readChoicesFrom (child : (t : Content) → ReadM t.Carrier) (c : Choice) (min : Nat)
    (remaining : List Element) : ReadM (List c.Carrier) := do
  let values ← match c.tags? with
    | some tags => (remaining.takeWhile (tags.contains ·.name)).mapM fun _ => readChoice child c
    | none => readWhileTaken (readChoice child c) remaining.length
  checkMin c.name min values.length
  return values

theorem readChoices_eq (child : (t : Content) → ReadM t.Carrier) (c : Choice) (min : Nat)
    (r : Reading) :
    readChoices child c min r = readChoicesFrom child c min r.cursor.remaining r :=
  rfl

theorem readChoicesFrom_follows
    (h : ∀ t e, Enters (site.child e) (child t) (childScan t e)) (c : Choice) (min : Nat)
    (rest : List Element) :
    Follows site (readChoicesFrom child c min rest)
      (scanChoicesFrom site childScan c min rest) := by
  have hchoice := readChoice_follows h c
  have hmin (values : List c.Carrier) :=
    (checkMin_follows site c.name min values.length).bind fun _ => .pure values
  unfold readChoicesFrom scanChoicesFrom
  cases c.tags? with
  | some tags => exact (Follows.mapM (fun _ => hchoice.follows) _).bind hmin
  | none => exact (readWhileTaken_follows hchoice _).bind hmin

theorem readChoices_follows (h : ∀ t e, Enters (site.child e) (child t) (childScan t e))
    (c : Choice) (min : Nat) :
    Follows site (readChoices child c min) (scanChoices site childScan c min) := by
  intro r base s hs
  rw [readChoices_eq, hs.rest]
  exact readChoicesFrom_follows h c min s.rest r base s hs

theorem readContent_follows (h : ∀ t e, Enters (site.child e) (child t) (childScan t e)) :
    (t : Content) → Follows site (readContent child t) (scanContent site childScan t)
  | .group g => readGroup_follows h g
  | .choice c => (readChoice_follows h c).follows
  | .series s => (readTuple_follows h s.record.members).bind fun values =>
    (readChoices_follows h s.record.choice s.record.min).bind fun entries =>
      .pure (s.record.ofParts (values, entries))

end Members

/-! ### Levels -/

/-- By induction on the levels that the limit leaves. -/
theorem readLevels_enters (levels : Nat) :
    ∀ (site : Site) (t : Content), (levels = 0 ∨ levels = site.below + 1) →
      Enters site (readLevels levels t)
        (scanLevels site.denyUnknown site.limit levels t site.element) := by
  induction levels with
  | zero =>
    intro site t _ r base hs
    refine ⟨r, ?_, .refl r⟩
    show (Except.error (Error.depthExceeded r.cursor.maxDepth), r) = _
    rw [hs.limit]
  | succ n ih =>
    intro site t hlevels
    obtain rfl : n = site.below := by omega
    refine (readContent_follows (fun t' e => ?_) t).enters (finishElement_follows site)
    refine ih (site.child e) t' ?_
    show site.below = 0 ∨ site.below = site.below - 1 + 1
    omega

/-- The root of a tree, under the options it is loaded with. -/
def Site.root (o : LoadOptions) (root : Element) : Site where
  element := root
  denyUnknown := o.denyUnknown
  limit := max o.maxDepth 1
  below := max o.maxDepth 1 - 1

theorem Site.below_root (o : LoadOptions) (root : Element) :
    (Site.root o root).below + 1 = max o.maxDepth 1 :=
  Nat.sub_add_cancel (Nat.le_max_right _ _)

theorem Reading.start_shows (o : LoadOptions) (root : Element) :
    (Reading.start root o.maxDepth o.denyUnknown).Shows (.root o root) 0
      { rest := root.childElements } where
  element := rfl
  denyUnknown := rfl
  limit := rfl
  depth := by
    have hbelow := Site.below_root o root
    show 1 + (Site.root o root).below = max o.maxDepth 1
    omega
  rest := rfl
  consumed := rfl
  asked := rfl
  tidy := fun p hp => by cases hp

/-- Reading at the root is a scan of the root, on as many levels as the limit admits. -/
theorem Content.readRoot_eq_scan (t : Content) (o : LoadOptions) (root : Element) :
    t.readRoot o root =
      scanLevels o.denyUnknown (max o.maxDepth 1) (max o.maxDepth 1) t root := by
  let start := Reading.start root o.maxDepth o.denyUnknown
  have hlevels : start.levelsBelow + 1 = max o.maxDepth 1 := Site.below_root o root
  have hrun := readLevels_enters (max o.maxDepth 1) (.root o root) t
    (.inr (Site.below_root o root).symm) start 0 (Reading.start_shows o root)
  simp only [Site.root] at hrun
  unfold Content.readRoot Content.read
  rw [hlevels]
  cases hscan : scanLevels o.denyUnknown (max o.maxDepth 1) (max o.maxDepth 1) t root with
  | error e =>
    simp only [hscan] at hrun
    obtain ⟨r', hr', -⟩ := hrun
    simp only [start, hr']
  | ok p =>
    obtain ⟨value, n⟩ := p
    simp only [hscan] at hrun
    obtain ⟨r', hr', -, hn⟩ := hrun
    have hcount : r'.consumed - start.consumed = n := by
      show r'.consumed - 0 = n
      omega
    simp only [start, hr', hcount]

end GuestXml.Schema
