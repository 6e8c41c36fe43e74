import GuestXml.Proofs.Reading.Agreement
import GuestXml.Proofs.Reading.Depth
import GuestXml.Proofs.Reading.Discipline

/-!
# A child is read on its own

One reading serves all levels of a tree, yet a child comes to what it comes to as the root of
a tree of its own, under the levels that are left there. Nothing around the child matters:
not its siblings, not the elements around it, not the names asked for before.

* `scanLevels_limit`: the limit shows in the error that names it, and nowhere else.
* `Reading.Sound.shows`: from every sound reading the scanners can take over.
* `Reading.Reachable.child_read_alone`: a required child, an optional one, a tagged
  alternative and a list of children are read as what the children come to alone.
-/

namespace GuestXml

/-- The same error under another limit on depth. -/
def Error.withLimit (limit : Nat) : Error → Error
  | .depthExceeded _ => .depthExceeded limit
  | e => e

theorem Error.withLimit_of_ne {e : Error} {limit : Nat} (h : ∀ l, e ≠ .depthExceeded l) :
    e.withLimit limit = e := by
  cases e with
  | depthExceeded l => exact absurd rfl (h l)
  | _ => rfl

namespace Schema

open Xml (Element)

/-! ### The limit in errors -/

/-- An element exceeds the limit it is read under, and no other. -/
theorem scanLevels_depthExceeded {denyUnknown : Bool} {limit levels l : Nat} {t : Content}
    {e : Element} (h : scanLevels denyUnknown limit levels t e = .error (.depthExceeded l)) :
    l = limit := by
  -- With room for the whole element the limit is never met.
  let scan (n : Nat) := scanLevels denyUnknown limit n t e
  have hcut : CutAt levels limit e (scan levels) (scan (max levels e.height)) :=
    scanLevels_cut denyUnknown (Nat.le_max_left _ _) t e
  have hroom : CutAt (max levels e.height) limit e (scan _) (scan _) :=
    scanLevels_cut denyUnknown (Nat.le_refl _) t e
  rcases hcut.eq with hsame | hlow
  · exact absurd (hsame ▸ h) (hroom.error (Nat.le_max_right _ _) l)
  · exact (Error.depthExceeded.inj (Except.error.inj (hlow.symm.trans h))).symm

/-- **The limit shows in its own error only.** -/
theorem scanLevels_limit (denyUnknown : Bool) (limit limit' levels : Nat) (t : Content)
    (e : Element) :
    scanLevels denyUnknown limit levels t e =
      (scanLevels denyUnknown limit' levels t e).mapError (Error.withLimit limit) := by
  let scan (l : Nat) := scanLevels denyUnknown l levels t e
  have hcut : CutAt levels limit e (scan limit) (scan limit') :=
    scanLevels_cut denyUnknown (Nat.le_refl _) t e
  have hcut' : CutAt levels limit' e (scan limit') (scan limit) :=
    scanLevels_cut denyUnknown (Nat.le_refl _) t e
  show scan limit = (scan limit').mapError (Error.withLimit limit)
  rcases hcut.eq with hsame | hlow
  · rw [← hsame]
    cases hscan : scan limit with
    | ok p => rfl
    | error err =>
      show _ = Except.error (err.withLimit limit)
      by_cases hdeep : ∃ l, err = .depthExceeded l
      · obtain ⟨l, rfl⟩ := hdeep
        rw [scanLevels_depthExceeded hscan]
        rfl
      · rw [Error.withLimit_of_ne fun l hl => hdeep ⟨l, hl⟩]
  · rw [hlow]
    rcases hcut'.eq with hsame | hhigh
    · rw [hsame, hlow]
      rfl
    · rw [hhigh]
      rfl

/-! ### From a reading to a scan -/

namespace Reading

/-- The element that is read, under the conditions of the reading. -/
def site (r : Reading) : Site where
  element := r.current
  denyUnknown := r.denyUnknown
  limit := r.cursor.maxDepth
  below := r.levelsBelow

/-- What is left of the element that is read. -/
def scan (r : Reading) : Scan where
  rest := r.cursor.remaining
  consumed := r.consumed
  asked := (r.requested.takeWhile (·.1 == r.cursor.depth)).map (·.2)

theorem Sound.shows {r : Reading} (hr : r.Sound) : r.Shows r.site 0 r.scan where
  element := rfl
  denyUnknown := rfl
  limit := rfl
  depth := by
    have hdepth := hr.depth
    show r.cursor.depth + (r.cursor.maxDepth - r.cursor.depth) = r.cursor.maxDepth
    omega
  rest := rfl
  consumed := (Nat.zero_add _).symm
  asked := rfl
  tidy := hr.tidy

end Reading

/-- The reader for the children of an element follows the scanner for them. -/
theorem readLevels_child (site : Site) (t : Content) (e : Element) :
    Enters (site.child e) (readLevels site.below t)
      (scanLevels site.denyUnknown site.limit site.below t e) := by
  refine readLevels_enters site.below (site.child e) t ?_
  show site.below = 0 ∨ site.below = site.below - 1 + 1
  omega

/-! ### Children read by a scan -/

/-- The number of elements that children take, with those below them. -/
def elementsTaken {α : Type} : List (α × Nat) → Nat
  | [] => 0
  | (_, n) :: vs => n + 1 + elementsTaken vs

section Scanning

variable {α β : Type} {site : Site}

theorem scanChild_of_below {result : Except Error (α × Nat)} (h : site.below ≠ 0) (s : Scan) :
    scanChild site result s = result.map fun (a, n) =>
      (a, { s with rest := s.rest.tail, consumed := s.consumed + n + 1 }) := by
  rw [scanChild, if_neg h]

/-- Children are read one after the other, each as it comes to alone. -/
theorem mapM_scanChild (h : site.below ≠ 0) (result : Element → Except Error (α × Nat))
    (es : List Element) (s : Scan) :
    match es.mapM result with
    | .ok vs => ∃ s', (es.mapM fun e => scanChild site (result e)) s = .ok (vs.map Prod.fst, s') ∧
        s'.consumed = s.consumed + elementsTaken vs
    | .error e => (es.mapM fun e => scanChild site (result e)) s = .error e := by
  induction es generalizing s with
  | nil => exact ⟨s, rfl, rfl⟩
  | cons e es ih =>
    rw [List.mapM_cons, List.mapM_cons]
    cases hresult : result e with
    | error err =>
      have hfirst : scanChild site (Except.error err : Except Error (α × Nat)) s = .error err :=
        scanChild_of_below h s
      exact ScanM.bind_of_error hfirst
    | ok p =>
      obtain ⟨a, n⟩ := p
      have hfirst : scanChild site (Except.ok (a, n)) s = .ok (a, _) := scanChild_of_below h s
      have hrest := ih { s with rest := s.rest.tail, consumed := s.consumed + n + 1 }
      rw [ScanM.bind_of_ok hfirst]
      cases hmore : es.mapM result with
      | error err =>
        simp only [hmore] at hrest
        exact ScanM.bind_of_error hrest
      | ok vs =>
        simp only [hmore] at hrest
        obtain ⟨s', hs', hconsumed⟩ := hrest
        refine ⟨s', (ScanM.bind_of_ok hs').trans rfl, ?_⟩
        show s'.consumed = s.consumed + (n + 1 + elementsTaken vs)
        rw [hconsumed]
        show s.consumed + n + 1 + elementsTaken vs = _
        omega

end Scanning

/-! ### Children read in place -/

/-- What reading one child comes to, if the child comes to a result alone. -/
def Reading.Yields {α β : Type} (r : Reading) (f : α → β) (alone : Except Error (α × Nat))
    (run : Except Error β × Reading) : Prop :=
  match alone with
  | .ok (v, n) => run.1 = .ok (f v) ∧ run.2.consumed = r.consumed + n + 1
  | .error e => run.1 = .error e

/-- What reading all next children of a name comes to, if the children come to results
alone. -/
def Reading.YieldsAll {α : Type} (r : Reading) (name : String) (min : Nat)
    (alone : Except Error (List (α × Nat))) (run : Except Error (List α) × Reading) : Prop :=
  match alone with
  | .ok vs =>
    if vs.length < min then run.1 = .error (.cardinality r.current.name name min vs.length)
    else run.1 = .ok (vs.map Prod.fst) ∧
      run.2.consumed = r.consumed + elementsTaken vs
  | .error e => run.1 = .error e

section Following

variable {α β : Type} {site : Site} {r : Reading} {base : Nat} {s : Scan}

/-- A reader yields what its scanner takes from a child. -/
theorem Follows.yields {read : ReadM β} {scan : ScanM β} (h : Follows site read scan)
    (hs : r.Shows site base s) (f : α → β) {alone : Except Error (α × Nat)} {s₀ : Scan}
    (hconsumed : s₀.consumed = s.consumed)
    (hscan : scan s = alone.map fun (a, n) =>
      (f a, { s₀ with rest := s₀.rest.tail, consumed := s₀.consumed + n + 1 })) :
    r.Yields f alone (read r) := by
  have hrun := h r base s hs
  unfold Reading.Yields
  cases alone with
  | error e =>
    have hfail : scan s = .error e := hscan
    simp only [hfail] at hrun
    obtain ⟨r', hr', -⟩ := hrun
    rw [hr']
  | ok p =>
    obtain ⟨v, n⟩ := p
    have hdone : scan s = .ok (f v, _) := hscan
    simp only [hdone] at hrun
    obtain ⟨r', hr', -, hs'⟩ := hrun
    rw [hr']
    refine ⟨rfl, ?_⟩
    rw [hs'.consumed, hs.consumed]
    show base + (s₀.consumed + n + 1) = _
    omega

/-- Names may be asked for before a child is read. -/
theorem scanRequired_child {result : Element → Except Error (α × Nat)} {e : Element}
    {more : List Element} (hbelow : site.below ≠ 0) (hrest : s.rest = e :: more) :
    (do scanChild site (result (← scanRequired site e.name)) : ScanM α) s =
      (result e).map fun (a, n) =>
        (a, { s.ask e.name with
          rest := (s.ask e.name).rest.tail, consumed := (s.ask e.name).consumed + n + 1 }) := by
  rw [ScanM.bind_of_ok (scanRequired_of_named site hrest rfl), scanChild_of_below hbelow]

theorem scanOptional_child {result : Element → Except Error (α × Nat)} {e : Element}
    {more : List Element} (hbelow : site.below ≠ 0) (hrest : s.rest = e :: more) (f : α → β)
    (b : β) :
    (do match ← scanNext? e.name with
        | some c => f <$> scanChild site (result c)
        | none => return b : ScanM β) s =
      (result e).map fun (a, n) =>
        (f a, { s.ask e.name with
          rest := (s.ask e.name).rest.tail, consumed := (s.ask e.name).consumed + n + 1 }) := by
  rw [ScanM.bind_of_ok (scanNext?_of_named hrest rfl)]
  show (f <$> scanChild site (result e)) (s.ask e.name) = _
  cases result e with
  | error err => exact ScanM.map_of_error (scanChild_of_below hbelow _)
  | ok p => exact ScanM.map_of_ok (scanChild_of_below hbelow _)

/-- A list of children is read and checked to be long enough. -/
theorem Follows.yieldsAll {read : ReadM (List α)} {result : Element → Except Error (α × Nat)}
    {name : String} {min : Nat}
    (h : Follows site read
      (do let values ← (← scanAll name).mapM fun e => scanChild site (result e)
          scanMin site name min values.length
          return values))
    (hs : r.Shows site base s) (hbelow : site.below ≠ 0) :
    r.YieldsAll name min ((s.rest.takeWhile (·.name == name)).mapM result) (read r) := by
  have hrun := h r base s hs
  have hchildren := mapM_scanChild hbelow result (s.rest.takeWhile (·.name == name)) (s.ask name)
  have hall : scanAll name s = .ok (s.rest.takeWhile (·.name == name), s.ask name) := rfl
  rw [ScanM.bind_of_ok hall] at hrun
  unfold Reading.YieldsAll
  cases hresult : (s.rest.takeWhile (·.name == name)).mapM result with
  | error e =>
    simp only [hresult] at hchildren
    rw [ScanM.bind_of_error hchildren] at hrun
    obtain ⟨r', hr', -⟩ := hrun
    rw [hr']
  | ok vs =>
    simp only [hresult] at hchildren
    obtain ⟨s', hs', hconsumed⟩ := hchildren
    rw [ScanM.bind_of_ok hs', List.length_map] at hrun
    by_cases hfew : vs.length < min
    · have hcheck : scanMin site name min vs.length s' =
          .error (.cardinality site.element.name name min vs.length) := by
        unfold scanMin
        rw [if_pos hfew]
        rfl
      rw [ScanM.bind_of_error hcheck] at hrun
      obtain ⟨r', hr', -⟩ := hrun
      simp only [if_pos hfew, hr', hs.current]
    · rw [ScanM.bind_of_ok (scanMin_eq_ok_iff.mpr ⟨Nat.not_lt.mp hfew, rfl⟩)] at hrun
      obtain ⟨r', hr', -, hs''⟩ := hrun
      simp only [if_neg hfew, hr', true_and]
      rw [hs''.consumed, hconsumed, hs.consumed, s.consumed_ask]
      omega

end Following

/-! ### Slots -/

/-- **A child is read on its own.** From whatever reading it is entered, a child comes to the
value, the count or the error that it comes to as the root of a tree, with the levels that are
left for it, save that an error about the limit names the limit of the whole. -/
theorem Reading.Reachable.child_read_alone {root e : Element} {o : LoadOptions} {r : Reading}
    (h : r.Reachable root o) (hroom : r.cursor.depth + 1 ≤ o.maxDepth)
    (hnext : r.cursor.peek? = some e) (t : Content) :
    let alone (c : Element) := (t.readRoot
      { maxDepth := o.maxDepth - r.cursor.depth, denyUnknown := o.denyUnknown } c).mapError
        (Error.withLimit o.maxDepth)
    r.Yields id (alone e) ((Field.element e.name t).read r) ∧
      r.Yields some (alone e) ((Field.optionalElement e.name t).read r) ∧
      (∀ label, r.Yields id (alone e)
        (withChildren (readAlternative · (.element label e.name t)) r)) ∧
      ∀ min, r.YieldsAll e.name min
        ((r.cursor.remaining.takeWhile (·.name == e.name)).mapM alone)
        ((Field.elements e.name min t).read r) := by
  intro alone
  obtain ⟨hr, hmax, hdeny⟩ := h.sound
  have hlimit : r.site.limit = o.maxDepth := by
    show r.cursor.maxDepth = o.maxDepth
    omega
  have hbelow : r.site.below = o.maxDepth - r.cursor.depth := by
    show r.cursor.maxDepth - r.cursor.depth = _
    rw [show r.cursor.maxDepth = o.maxDepth from hlimit]
  have hpos : r.site.below ≠ 0 := by omega
  have hresult : (fun c => scanLevels r.site.denyUnknown r.site.limit r.site.below t c) = alone := by
    funext c
    have hroot := t.readRoot_eq_scan
      { maxDepth := o.maxDepth - r.cursor.depth, denyUnknown := o.denyUnknown } c
    have hone : max (o.maxDepth - r.cursor.depth) 1 = r.site.below := by omega
    simp only [hone] at hroot
    show _ = (t.readRoot _ c).mapError _
    rw [hroot, ← hlimit, show r.site.denyUnknown = o.denyUnknown from hdeny]
    exact scanLevels_limit _ _ _ _ t c
  have hchild := readLevels_child r.site
  have hshows := hr.shows
  obtain ⟨more, hrest⟩ : ∃ more, r.scan.rest = e :: more := List.head?_eq_some_iff.mp hnext
  have hconsumed := r.scan.consumed_ask e.name
  refine ⟨?_, ?_, fun label => ?_, fun min => ?_⟩
  · have hfollows := readField_follows hchild (.element e.name t)
    refine hfollows.yields hshows id hconsumed ?_
    rw [← hresult]
    exact scanRequired_child hpos hrest
  · have hfollows := readField_follows hchild (.optionalElement e.name t)
    refine hfollows.yields hshows some hconsumed ?_
    rw [← hresult]
    exact scanOptional_child hpos hrest some none
  · have hfollows := (readAlternative_follows hchild (.element label e.name t)).follows
    refine hfollows.yields hshows id hconsumed ?_
    rw [← hresult]
    exact scanRequired_child hpos hrest
  · have hfollows := readField_follows hchild (.elements e.name min t)
    rw [← hresult]
    exact hfollows.yieldsAll hshows hpos

/-- A domain inside a snapshot nests too deeply, as it does alone under the levels left. -/
theorem Reading.Reachable.child_read_alone_snapshot :
    let domain : Element := { name := "domain", attributes := [("type", "kvm")], children := [
      .element { name := "name", children := [.text "vm"] }] }
    let r := Reading.start { name := "domainsnapshot", children := [.element domain] } 2 false
    r.Yields some (.error (.depthExceeded 2))
      ((Field.optionalElement "domain" (.group .domain)).read r) := by
  intro domain r
  have h := Reading.Reachable.child_read_alone (o := { maxDepth := 2 }) (.start)
    (show r.cursor.depth + 1 ≤ 2 by decide) (show r.cursor.peek? = some domain from rfl)
    (.group .domain)
  exact h.2.1

end Schema

end GuestXml
