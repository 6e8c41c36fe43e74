import GuestXml.Proofs.Reading.Alternatives

/-!
# Runs of tagged children

A choice all of whose alternatives have tags can be read over and over: as long as the next
child has one of the tags, there is one more entry. Every alternative is tried on each of the
children, but a child can only be the alternative whose tag it has, so the entries are what
the children load to on their own, one by one and in order.

* `readChoice_of_tag`: of all alternatives, the one with the tag of the next child decides.
* `Reading.Sound.takesRun`: a list has one entry for each child of the run, or the error of the
  first child that does not load.
* `Reading.Reachable.takes_tagged_run`: so it is for every list of a tagged choice, and for the
  entries of a filter or a rule.
-/

namespace GuestXml

theorem Error.isFatal_withLimit (e : Error) (limit : Nat) :
    (e.withLimit limit).isFatal = e.isFatal := by
  cases e <;> rfl

namespace Schema

open Xml (Element)

/-! ### Entries -/

/-- Loads an element as the type of an alternative. -/
def Alternative.load (o : LoadOptions) (e : Element) : (a : Alternative) → Except Error a.Carrier
  | .group _ g => (Content.group g).load o e
  | .element _ _ t => t.load o e

/-- Whether a name is the tag of an alternative. -/
def Choice.isTag (c : Choice) (name : String) : Bool :=
  c.variants.alternatives.any (·.tag? = some name)

/-- What an element comes to as the alternative whose tag it has. -/
def Choice.LoadsAs (c : Choice) (o : LoadOptions) (e : Element)
    (result : Except Error c.Carrier) : Prop :=
  ∃ i : Fin c.variants.alternatives.length, (c.variants.alternatives.get i).tag? = some e.name ∧
    result = ((c.variants.alternatives.get i).load o e).map fun v => c.variants.ofAny (.ofIndex i v)

/-- At most one alternative has a tag. -/
theorem Choice.index_unique {c : Choice} {i j : Fin c.variants.alternatives.length} {tag : String}
    (hi : (c.variants.alternatives.get i).tag? = some tag)
    (hj : (c.variants.alternatives.get j).tag? = some tag) : i = j := by
  have hdiffer := List.pairwise_iff_getElem.mp c.tag?_ne
  rcases Nat.lt_trichotomy i j with hlt | heq | hgt
  · exact (hdiffer i j i.isLt j.isLt hlt).elim (fun hnone => nomatch hi.symm.trans hnone)
      fun hne => absurd (hi.trans hj.symm) hne
  · exact Fin.ext heq
  · exact (hdiffer j i j.isLt i.isLt hgt).elim (fun hnone => nomatch hj.symm.trans hnone)
      fun hne => absurd (hj.trans hi.symm) hne

section LoadsAs

variable {c : Choice} {o : LoadOptions} {e : Element}

theorem Choice.LoadsAs.of_ok {v : c.Carrier} (h : c.LoadsAs o e (.ok v)) :
    ∃ i w, (c.variants.alternatives.get i).tag? = some e.name ∧
      (c.variants.alternatives.get i).load o e = .ok w ∧ v = c.variants.ofAny (.ofIndex i w) := by
  obtain ⟨i, hi, hv⟩ := h
  cases hload : (c.variants.alternatives.get i).load o e with
  | error err =>
    rw [hload] at hv
    cases hv
  | ok w =>
    rw [hload] at hv
    exact ⟨i, w, hi, hload, Except.ok.inj hv⟩

theorem Choice.LoadsAs.of_error {err : Error} (h : c.LoadsAs o e (.error err)) :
    ∃ i : Fin c.variants.alternatives.length, (c.variants.alternatives.get i).tag? = some e.name ∧
      (c.variants.alternatives.get i).load o e = .error err := by
  obtain ⟨i, hi, herr⟩ := h
  cases hload : (c.variants.alternatives.get i).load o e with
  | ok w =>
    rw [hload] at herr
    cases herr
  | error err' =>
    rw [hload] at herr
    obtain rfl := Except.error.inj herr
    exact ⟨i, hi, hload⟩

theorem Choice.LoadsAs.unique {result result' : Except Error c.Carrier}
    (h : c.LoadsAs o e result) (h' : c.LoadsAs o e result') : result = result' := by
  obtain ⟨i, hi, rfl⟩ := h
  obtain ⟨j, hj, rfl⟩ := h'
  obtain rfl := Choice.index_unique hi hj
  rfl

theorem Choice.exists_index (h : c.isTag e.name = true) :
    ∃ i : Fin c.variants.alternatives.length,
      (c.variants.alternatives.get i).tag? = some e.name := by
  obtain ⟨a, ha, htag⟩ := List.any_eq_true.mp h
  obtain ⟨i, hi, rfl⟩ := List.mem_iff_getElem.mp ha
  exact ⟨⟨i, hi⟩, of_decide_eq_true htag⟩

theorem Choice.exists_loadsAs (h : c.isTag e.name = true) (o : LoadOptions) :
    ∃ result, c.LoadsAs o e result := by
  obtain ⟨i, hi⟩ := Choice.exists_index h
  exact ⟨_, i, hi, rfl⟩

end LoadsAs

/-- All alternatives have tags. -/
def Choice.IsTagged (c : Choice) : Prop :=
  ∀ a ∈ c.variants.alternatives, a.tag? ≠ none

instance (c : Choice) : Decidable c.IsTagged :=
  inferInstanceAs (Decidable (∀ a ∈ c.variants.alternatives, a.tag? ≠ none))

theorem Choice.IsTagged.tags? {c : Choice} (hc : c.IsTagged) :
    ∃ tags, c.tags? = some tags ∧ ∀ name, tags.contains name = c.isTag name := by
  let tags := c.variants.alternatives.map (·.tag?.getD "")
  have htag : ∀ a ∈ c.variants.alternatives, a.tag? = some (a.tag?.getD "") := by
    intro a ha
    obtain ⟨tag, htag⟩ := Option.ne_none_iff_exists'.mp (hc a ha)
    rw [htag, Option.getD_some]
  refine ⟨tags, mapM_tag?_eq_some_iff.mpr ?_, fun name => ?_⟩
  · rw [List.map_map]
    exact List.map_congr_left htag
  · rw [Bool.eq_iff_iff, List.contains_iff_mem, List.mem_map, Choice.isTag, List.any_eq_true]
    refine exists_congr fun a => and_congr_right fun ha => ?_
    rw [decide_eq_true_iff, htag a ha, Option.getD_some, Option.some.injEq]

/-! ### A child with a tag -/

section Scanning

variable {site : Site}

/-- The scan behind the next child. -/
def Scan.pass (s : Scan) (name : String) (n : Nat) : Scan :=
  { s.ask name with rest := s.rest.tail, consumed := s.consumed + n + 1 }

/-- What is read of children on the levels that are left for them. -/
def Site.scanBelow (site : Site) (t : Content) (e : Element) : Except Error (t.Carrier × Nat) :=
  scanLevels site.denyUnknown site.limit site.below t e

/-- Without a level below, children are too deep in any case. -/
theorem scanChild_scanBelow (t : Content) (e : Element) (s : Scan) :
    scanChild site (site.scanBelow t e) s = (site.scanBelow t e).map fun (v, n) =>
      (v, { s with rest := s.rest.tail, consumed := s.consumed + n + 1 }) := by
  by_cases hbelow : site.below = 0
  · rw [scanChild, if_pos hbelow, Site.scanBelow, hbelow]
    rfl
  · exact scanChild_of_below hbelow s

/-- Reads an element as the type of an alternative. -/
def Site.scanAs (site : Site) (e : Element) : (a : Alternative) → Except Error (a.Carrier × Nat)
  | .group _ g => site.scanBelow (.group g) e
  | .element _ _ t => site.scanBelow t e

variable {s : Scan} {e : Element} {more : List Element} {a : Alternative}

theorem scanAlternative_of_named (ha : a.tag? = some e.name) (hrest : s.rest = e :: more) :
    scanAlternative site site.scanBelow a s =
      (site.scanAs e a).map fun (v, n) => (v, s.pass e.name n) := by
  cases a with
  | group name g => cases ha
  | element name tag t =>
    obtain rfl : tag = e.name := Option.some.inj ha
    show (scanRequired site e.name >>= fun c => scanChild site (site.scanBelow t c)) s = _
    rw [ScanM.bind_of_ok (scanRequired_of_named site hrest rfl), scanChild_scanBelow]
    unfold Scan.pass
    rw [Scan.rest_ask, Scan.consumed_ask]
    rfl

/-- How children are loaded on the levels that are left for them. -/
def Site.left (site : Site) : LoadOptions where
  maxDepth := site.below
  denyUnknown := site.denyUnknown

/-- On the levels that are left, a child comes to what it loads to. -/
theorem Site.scanBelow_eq_load (hbelow : 0 < site.below) {t : Content} (ht : t.tag? = none)
    (e : Element) :
    (site.scanBelow t e).map Prod.fst =
      (t.load site.left e).mapError (Error.withLimit site.limit) := by
  have hmatch : t.tagMismatch? e = none := by
    rw [Content.tagMismatch?, ht]
  have hlevels : max site.left.maxDepth 1 = site.below := Nat.max_eq_left hbelow
  rw [Content.load, Content.loadCounted, hmatch, Content.readRoot_eq_scan, hlevels]
  rw [Site.scanBelow, scanLevels_limit site.denyUnknown site.limit site.below site.below t e]
  show _ = ((scanLevels site.denyUnknown site.below site.below t e).map Prod.fst).mapError _
  cases scanLevels site.denyUnknown site.below site.below t e <;> rfl

theorem Site.scanAs_eq_load (hbelow : 0 < site.below) (ha : a.content.tag? = none) :
    (site.scanAs e a).map Prod.fst =
      (a.load site.left e).mapError (Error.withLimit site.limit) := by
  cases a <;> exact site.scanBelow_eq_load hbelow ha e

theorem Site.scanAs_of_load (hbelow : 0 < site.below) (ha : a.content.tag? = none) {v : a.Carrier}
    (h : a.load site.left e = .ok v) : ∃ n, site.scanAs e a = .ok (v, n) := by
  have hload := site.scanAs_eq_load (e := e) hbelow ha
  rw [h] at hload
  rcases hscan : site.scanAs e a with err | ⟨w, n⟩
  · rw [hscan] at hload
    cases hload
  · rw [hscan] at hload
    cases hload
    exact ⟨n, rfl⟩

theorem Site.scanAs_of_load_error (hbelow : 0 < site.below) (ha : a.content.tag? = none)
    {err : Error} (h : a.load site.left e = .error err) :
    site.scanAs e a = .error (err.withLimit site.limit) := by
  have hload := site.scanAs_eq_load (e := e) hbelow ha
  rw [h] at hload
  rcases hscan : site.scanAs e a with err' | ⟨w, n⟩
  · rw [hscan] at hload
    cases hload
    rfl
  · rw [hscan] at hload
    cases hload

theorem Site.fitsLimit_scanAs {err : Error} (h : site.scanAs e a = .error err) :
    FitsLimit site.limit err := by
  cases a with
  | group name g => exact scanLevels_failsUnder _ _ _ _ _ _ h
  | element name tag t => exact scanLevels_failsUnder _ _ _ _ _ _ h

/-- Without a level below, nothing is read. -/
theorem Site.scanAs_of_below (h : site.below = 0) (e : Element) (a : Alternative) :
    site.scanAs e a = .error (.depthExceeded site.limit) := by
  cases a <;> (simp only [Site.scanAs, Site.scanBelow, h]; rfl)

end Scanning

/-! ### One entry -/

section Reading

variable {site : Site} {r : Reading} {base : Nat} {s : Scan} {e : Element} {more : List Element}
  {c : Choice}

theorem readLevels_scanBelow (site : Site) (t : Content) (e : Element) :
    Enters (site.child e) (readLevels site.below t) (site.scanBelow t e) :=
  readLevels_child site t e

/-- The alternative with the tag of the next child comes to what the child does. -/
theorem readAlternative_of_tag (hs : r.Shows site base s) (hrest : s.rest = e :: more)
    {a : Alternative} (ha : a.tag? = some e.name) :
    match site.scanAs e a with
    | .ok (v, n) => ∃ r', readAlternative (readLevels site.below) a r = (.ok v, r') ∧
        r'.Shows site base (s.pass e.name n)
    | .error err => readAlternative (readLevels site.below) a r = (.error err, r) := by
  have hrun := readAlternative_follows (readLevels_scanBelow site) a r base s hs
  rw [scanAlternative_of_named ha hrest] at hrun
  rcases hscan : site.scanAs e a with err | ⟨v, n⟩
  case error =>
    rw [hscan] at hrun
    exact hrun
  case ok =>
    rw [hscan] at hrun
    obtain ⟨r', hr', -, hs'⟩ := hrun
    exact ⟨r', hr', hs'⟩

/-- An alternative with another tag than the next child is rejected. -/
theorem rejects_of_unnamed (hs : r.Shows site base s) {a : Alternative} {tag : String}
    (ha : a.tag? = some tag) (hname : ∀ e ∈ s.rest.head?, e.name ≠ tag) :
    Rejects (readLevels site.below) r a := by
  have hrun := readAlternative_follows (readLevels_child site) a r base s hs
  rw [scanAlternative_of_unnamed ha hname] at hrun
  exact ⟨_, hrun, rfl⟩

/-- Of tagged alternatives, only the one with the tag of the next child is not rejected. -/
theorem rejects_of_ne (hc : c.IsTagged) (hs : r.Shows site base s) (hrest : s.rest = e :: more)
    {i j : Fin c.variants.alternatives.length}
    (hi : (c.variants.alternatives.get i).tag? = some e.name) (hj : j ≠ i) :
    Rejects (readLevels site.below) r (c.variants.alternatives.get j) := by
  have htagged : (c.variants.alternatives.get j).tag? ≠ none := hc _ (List.get_mem _ j)
  obtain ⟨tag, htag⟩ := Option.ne_none_iff_exists'.mp htagged
  refine rejects_of_unnamed hs htag ?_
  rw [hrest]
  rintro c ⟨⟩ rfl
  exact hj (Choice.index_unique htag hi)

/-- **The alternative with the tag of the next child decides.** Those before it and behind it
ask for another child. -/
theorem readChoice_of_tag (hc : c.IsTagged) (hs : r.Shows site base s)
    (hrest : s.rest = e :: more) {i : Fin c.variants.alternatives.length}
    (hi : (c.variants.alternatives.get i).tag? = some e.name) :
    (∀ v n, site.scanAs e (c.variants.alternatives.get i) = .ok (v, n) →
      ∃ r' s', readChoice (readLevels site.below) c r =
        (.ok (c.variants.ofAny (.ofIndex i v)), r') ∧ r'.Shows site base s' ∧ s'.rest = more) ∧
    ∀ err, site.scanAs e (c.variants.alternatives.get i) = .error err →
      readChoice (readLevels site.below) c r =
        (.error (if err.isFatal then .depthExceeded site.limit
          else .variantExhausted c.name site.element.name), r) := by
  have hread := readAlternative_of_tag hs hrest hi
  have hrejects (j : Fin c.variants.alternatives.length) (hj : j ≠ i) :=
    rejects_of_ne hc hs hrest hi hj
  refine ⟨fun v n hv => ?_, fun err herr => ?_⟩
  · rw [hv] at hread
    obtain ⟨r', hr', hs'⟩ := hread
    refine ⟨r', _, readChoice_of_eq (readFirst_of_index i (fun j hj => ?_) hr'), hs', ?_⟩
    · exact hrejects j (Fin.ne_of_lt hj)
    · simp only [Scan.pass, hrest, List.tail_cons]
  · rw [herr] at hread
    cases hfatal : err.isFatal with
    | true =>
      obtain rfl := site.fitsLimit_scanAs herr hfatal
      refine readChoice_of_eq (readFirst_of_index_fatal i (fun j hj => ?_) hread hfatal)
      obtain ⟨err', herr', hnot⟩ := hrejects j (Fin.ne_of_lt hj)
      exact ⟨err', herr', fun hfatal' => absurd (hnot.symm.trans hfatal') Bool.false_ne_true⟩
    | false =>
      refine (readChoice_of_eq (readFirst_of_rejects fun j => ?_)).trans ?_
      · rcases eq_or_ne j i with rfl | hj
        · exact ⟨err, hread, hfatal⟩
        · exact hrejects j hj
      · rw [hs.current]
        rfl

/-- What an alternative with a tag holds has no tag of its own. -/
theorem tag?_content_of_isTagged (hc : c.IsTagged) (i : Fin c.variants.alternatives.length) :
    (c.variants.alternatives.get i).content.tag? = none := by
  have hmem : (c.variants.alternatives.get i) ∈ c.variants.alternatives := List.get_mem _ i
  exact (c.tag?_content _ hmem).resolve_left (hc _ hmem)

/-- In place, an entry is what the child loads to. -/
theorem readChoice_of_ok (hc : c.IsTagged) (hbelow : 0 < site.below) (hs : r.Shows site base s)
    (hrest : s.rest = e :: more) {v : c.Carrier} (h : c.LoadsAs site.left e (.ok v)) :
    ∃ r' s', readChoice (readLevels site.below) c r = (.ok v, r') ∧
      r'.Shows site base s' ∧ s'.rest = more := by
  obtain ⟨i, w, hi, hload, rfl⟩ := h.of_ok
  obtain ⟨n, hscan⟩ := site.scanAs_of_load hbelow (tag?_content_of_isTagged hc i) hload
  exact (readChoice_of_tag hc hs hrest hi).1 w n hscan

/-- If the child does not load, the choice fails. -/
theorem readChoice_of_error (hc : c.IsTagged) (hbelow : 0 < site.below)
    (hs : r.Shows site base s) (hrest : s.rest = e :: more) {err : Error}
    (h : c.LoadsAs site.left e (.error err)) :
    readChoice (readLevels site.below) c r =
      (.error (if err.isFatal then .depthExceeded site.limit
        else .variantExhausted c.name site.element.name), r) := by
  obtain ⟨i, hi, hload⟩ := h.of_error
  have hscan := site.scanAs_of_load_error hbelow (tag?_content_of_isTagged hc i) hload
  rw [← err.isFatal_withLimit site.limit]
  exact (readChoice_of_tag hc hs hrest hi).2 _ hscan

/-! ### Runs -/

/-- Children that all load are read as what they load to. -/
theorem mapM_readChoice_of_ok (hc : c.IsTagged) {run : List Element} {vs : List c.Carrier}
    (hbelow : run ≠ [] → 0 < site.below)
    (h : run.Forall₂ (fun e v => c.LoadsAs site.left e (.ok v)) vs)
    (hs : r.Shows site base s) (hrest : s.rest = run ++ more) :
    ∃ r' s', (run.mapM fun _ => readChoice (readLevels site.below) c) r = (.ok vs, r') ∧
      r'.Shows site base s' ∧ s'.rest = more := by
  induction h generalizing r s with
  | nil => exact ⟨r, s, rfl, hs, hrest⟩
  | @cons e v run vs he _ ih =>
    have hbelow : 0 < site.below := hbelow (List.cons_ne_nil e run)
    obtain ⟨r₁, s₁, hr₁, hs₁, hrest₁⟩ := readChoice_of_ok hc hbelow hs hrest he
    obtain ⟨r₂, s₂, hr₂, hs₂, hrest₂⟩ := ih (fun _ => hbelow) hs₁ hrest₁
    refine ⟨r₂, s₂, ?_, hs₂, hrest₂⟩
    rw [List.mapM_cons, Fallible.bind_of_ok hr₁, Fallible.bind_of_ok hr₂]
    rfl

/-- The first child that does not load ends a run. -/
theorem mapM_readChoice_of_error (hc : c.IsTagged) (hbelow : 0 < site.below)
    {before after : List Element} {vs : List c.Carrier} {err : Error}
    (hbefore : before.Forall₂ (fun e v => c.LoadsAs site.left e (.ok v)) vs)
    (h : c.LoadsAs site.left e (.error err)) (hs : r.Shows site base s)
    (hrest : s.rest = (before ++ e :: after) ++ more) :
    ∃ r', ((before ++ e :: after).mapM fun _ => readChoice (readLevels site.below) c) r =
      (.error (if err.isFatal then .depthExceeded site.limit
        else .variantExhausted c.name site.element.name), r') := by
  rw [List.append_assoc] at hrest
  obtain ⟨r₁, s₁, hr₁, hs₁, hrest₁⟩ := mapM_readChoice_of_ok hc (fun _ => hbelow) hbefore hs hrest
  have hread := readChoice_of_error hc hbelow hs₁ hrest₁ h
  refine ⟨r₁, ?_⟩
  rw [List.mapM_append, Fallible.bind_of_ok hr₁, List.mapM_cons]
  exact Fallible.bind_of_error (Fallible.bind_of_error hread)

/-- Without a level below, a run with any children is too deep. -/
theorem mapM_readChoice_of_below (hc : c.IsTagged) (hbelow : site.below = 0)
    (he : c.isTag e.name = true) (hs : r.Shows site base s) (hrest : s.rest = e :: more)
    (run : List Element) :
    ∃ r', ((e :: run).mapM fun _ => readChoice (readLevels site.below) c) r =
      (.error (.depthExceeded site.limit), r') := by
  obtain ⟨i, hi⟩ := Choice.exists_index he
  have hread := (readChoice_of_tag hc hs hrest hi).2 _ (site.scanAs_of_below hbelow e _)
  refine ⟨r, ?_⟩
  rw [List.mapM_cons]
  exact Fallible.bind_of_error hread

end Reading

/-! ### Lists of entries -/

/-- What is related to results is related to values throughout, or up to a first error. -/
theorem forall₂_or_error {α β : Type} {R : α → Except Error β → Prop} {as : List α}
    (h : ∀ a ∈ as, ∃ result, R a result) :
    (∃ bs, as.Forall₂ (fun a b => R a (.ok b)) bs) ∨
      ∃ before a after bs err, as = before ++ a :: after ∧
        before.Forall₂ (fun a b => R a (.ok b)) bs ∧ R a (.error err) := by
  induction as with
  | nil => exact .inl ⟨[], .nil⟩
  | cons a as ih =>
    obtain ⟨⟨err⟩ | ⟨b⟩, ha⟩ := h a List.mem_cons_self
    · exact .inr ⟨[], a, as, [], err, rfl, .nil, ha⟩
    · rcases ih fun a' ha' => h a' (List.mem_cons_of_mem a ha') with
        ⟨bs, hbs⟩ | ⟨before, a', after, bs, err, rfl, hbs, ha'⟩
      · exact .inl ⟨b :: bs, .cons ha hbs⟩
      · exact .inr ⟨a :: before, a', after, b :: bs, err, rfl, .cons ha hbs, ha'⟩

namespace Reading

/-- The next children in a row that have tags of a choice. -/
def taggedRun (r : Reading) (c : Choice) : List Element :=
  r.cursor.remaining.takeWhile fun e => c.isTag e.name

theorem isTag_of_mem_taggedRun (r : Reading) {c : Choice} {e : Element}
    (h : e ∈ r.taggedRun c) : c.isTag e.name = true :=
  List.all_eq_true.mp List.all_takeWhile e h

/-- The options that are left for the children of the current element. -/
def left (r : Reading) (o : LoadOptions) : LoadOptions :=
  { o with maxDepth := o.maxDepth - r.cursor.depth }

/-- A result of reading a tagged choice over and over: the entries are what the children of the
run load to, and if one does not load, the first such child makes the result an error. -/
structure TakesRun (r : Reading) (o : LoadOptions) (c : Choice) (min : Nat)
    (result : Except Error (List c.Carrier)) : Prop where
  entries : ∀ vs, result = .ok vs →
    (r.taggedRun c).Forall₂ (fun e v => c.LoadsAs (r.left o) e (.ok v)) vs ∧
      min ≤ (r.taggedRun c).length
  failure : ∀ e ∈ r.taggedRun c, ∀ err, c.LoadsAs (r.left o) e (.error err) →
    ∃ before first after vs cause, r.taggedRun c = before ++ first :: after ∧
      before.Forall₂ (fun e v => c.LoadsAs (r.left o) e (.ok v)) vs ∧
      c.LoadsAs (r.left o) first (.error cause) ∧
      result = .error (
        if r.cursor.depth < o.maxDepth ∧ cause.isFatal = false then
          .variantExhausted c.name r.current.name
        else .depthExceeded (max o.maxDepth 1))

/-- A result that only a later failure can take from the list. -/
theorem TakesRun.of_later {r : Reading} {o : LoadOptions} {c : Choice} {min : Nat}
    {result later : Except Error (List c.Carrier)} (h : r.TakesRun o c min result)
    (hok : ∀ vs, later = .ok vs → result = .ok vs)
    (herror : ∀ err, result = .error err → later = .error err) :
    r.TakesRun o c min later where
  entries vs hvs := h.entries vs (hok vs hvs)
  failure e he err herr := by
    obtain ⟨before, first, after, vs, cause, hrun, hbefore, hfirst, hresult⟩ :=
      h.failure e he err herr
    exact ⟨before, first, after, vs, cause, hrun, hbefore, hfirst, herror _ hresult⟩

end Reading

theorem readChoices_of_isTagged {c : Choice} (hc : c.IsTagged)
    (child : (t : Content) → ReadM t.Carrier) (min : Nat) (r : Reading) :
    readChoices child c min r =
      (do let values ← (r.taggedRun c).mapM fun _ => readChoice child c
          checkMin c.name min values.length
          return values : ReadM (List c.Carrier)) r := by
  obtain ⟨tags, htags, hcontains⟩ := hc.tags?
  have hview : Fallible.view (·.cursor.remaining) r = (.ok r.cursor.remaining, r) := rfl
  unfold readChoices
  rw [Fallible.bind_of_ok hview]
  simp only [htags, hcontains]
  rfl

section Lists

variable {r : Reading} {o : LoadOptions} {c : Choice} (hr : r.Sound)
  (hmax : r.cursor.maxDepth = max o.maxDepth 1) (hdeny : r.denyUnknown = o.denyUnknown)

include hr hmax

theorem Reading.Sound.below_eq : r.site.below = o.maxDepth - r.cursor.depth := by
  have hdepth : r.cursor.depth = r.cursor.outer.length + 1 := rfl
  have hle := hr.depth
  show r.cursor.maxDepth - r.cursor.depth = _
  omega

include hdeny in
theorem Reading.Sound.left_eq : r.site.left = r.left o := by
  show (⟨r.site.below, r.denyUnknown⟩ : LoadOptions) = ⟨o.maxDepth - r.cursor.depth, o.denyUnknown⟩
  rw [hr.below_eq hmax, hdeny]

include hdeny in
/-- If all children of the run load, the list is what they load to, unless it is too short. -/
theorem Reading.Sound.readMany_of_entries (hc : c.IsTagged) (min : Nat) {vs : List c.Carrier}
    (hvs : (r.taggedRun c).Forall₂ (fun e v => c.LoadsAs (r.left o) e (.ok v)) vs)
    (hroom : r.taggedRun c ≠ [] → r.cursor.depth < o.maxDepth) :
    (c.readMany min r).1 =
      if vs.length < min then .error (.cardinality r.current.name c.name min vs.length)
      else .ok vs := by
  have hbelow (h : r.taggedRun c ≠ []) : 0 < r.site.below := by
    rw [hr.below_eq hmax]
    exact Nat.sub_pos_of_lt (hroom h)
  rw [← hr.left_eq hmax hdeny] at hvs
  obtain ⟨r', s', hr', hs', -⟩ := mapM_readChoice_of_ok hc hbelow hvs hr.shows
    List.takeWhile_append_dropWhile.symm
  show (readChoices (readLevels r.site.below) c min r).1 = _
  rw [readChoices_of_isTagged hc, Fallible.bind_of_ok hr']
  by_cases hfew : vs.length < min
  · have hcheck : checkMin c.name min vs.length r' =
        (.error (.cardinality r.current.name c.name min vs.length), r') := by
      rw [checkMin, if_pos hfew, hs'.current]
      rfl
    rw [if_pos hfew, Fallible.bind_of_error hcheck]
  · have hcheck : checkMin c.name min vs.length r' = (.ok (), r') := by
      rw [checkMin, if_neg hfew]
    rw [if_neg hfew, Fallible.bind_of_ok hcheck]
    rfl

/-- Where no level is left, a run with any children is too deep. -/
theorem Reading.Sound.readMany_of_full (hc : c.IsTagged) (min : Nat) (hrun : r.taggedRun c ≠ [])
    (hfull : ¬r.cursor.depth < o.maxDepth) :
    (c.readMany min r).1 = .error (.depthExceeded (max o.maxDepth 1)) := by
  have hbelow : r.site.below = 0 := by
    rw [hr.below_eq hmax]
    omega
  have hrest : r.scan.rest = r.taggedRun c ++ _ := List.takeWhile_append_dropWhile.symm
  show (readChoices (readLevels r.site.below) c min r).1 = _
  rw [readChoices_of_isTagged hc, ← hmax]
  cases hcons : r.taggedRun c with
  | nil => exact absurd hcons hrun
  | cons e run =>
    rw [hcons] at hrest
    have he : c.isTag e.name = true := r.isTag_of_mem_taggedRun (hcons ▸ List.mem_cons_self)
    obtain ⟨r', hr'⟩ := mapM_readChoice_of_below hc hbelow he hr.shows hrest run
    rw [Fallible.bind_of_error hr']
    rfl

include hdeny

/-- The first child of the run that does not load is what the list fails with. -/
theorem Reading.Sound.readMany_of_error (hc : c.IsTagged) (min : Nat)
    {before after : List Element} {first : Element} {vs : List c.Carrier} {cause : Error}
    (hrun : r.taggedRun c = before ++ first :: after)
    (hbefore : before.Forall₂ (fun e v => c.LoadsAs (r.left o) e (.ok v)) vs)
    (hfirst : c.LoadsAs (r.left o) first (.error cause)) :
    (c.readMany min r).1 = .error (
      if r.cursor.depth < o.maxDepth ∧ cause.isFatal = false then
        .variantExhausted c.name r.current.name
      else .depthExceeded (max o.maxDepth 1)) := by
  by_cases hroom : r.cursor.depth < o.maxDepth
  · have hbelow : 0 < r.site.below := by
      rw [hr.below_eq hmax]
      exact Nat.sub_pos_of_lt hroom
    have hrest : r.scan.rest = r.taggedRun c ++ _ := List.takeWhile_append_dropWhile.symm
    rw [← hr.left_eq hmax hdeny] at hbefore hfirst
    obtain ⟨r', hr'⟩ := mapM_readChoice_of_error hc hbelow hbefore hfirst hr.shows (hrun ▸ hrest)
    rw [← hrun] at hr'
    show (readChoices (readLevels r.site.below) c min r).1 = _
    rw [readChoices_of_isTagged hc, Fallible.bind_of_error hr', ← hmax]
    cases cause.isFatal <;> simp [hroom] <;> rfl
  · rw [if_neg fun h => hroom h.1]
    exact hr.readMany_of_full hmax hc min (by simp [hrun]) hroom

/-- **A tagged choice takes its run.** -/
theorem Reading.Sound.takesRun (hc : c.IsTagged) (min : Nat) :
    r.TakesRun o c min (c.readMany min r).1 := by
  rcases forall₂_or_error fun e he => Choice.exists_loadsAs (r.isTag_of_mem_taggedRun he) (r.left o)
    with ⟨vs, hvs⟩ | ⟨before, first, after, vs, cause, hrun, hbefore, hfirst⟩
  case inl =>
    refine ⟨fun ws hws => ?_, fun e he err herr => ?_⟩
    · have hroom (hrun : r.taggedRun c ≠ []) : r.cursor.depth < o.maxDepth := by
        by_contra hfull
        rw [hr.readMany_of_full hmax hc min hrun hfull] at hws
        cases hws
      rw [hr.readMany_of_entries hmax hdeny hc min hvs hroom] at hws
      by_cases hfew : vs.length < min
      · rw [if_pos hfew] at hws
        cases hws
      · rw [if_neg hfew] at hws
        cases hws
        exact ⟨hvs, hvs.length_eq ▸ Nat.not_lt.mp hfew⟩
    · obtain ⟨i, hi, rfl⟩ := List.mem_iff_getElem.mp he
      have hok := hvs.get hi (hvs.length_eq ▸ hi)
      cases hok.unique herr
  case inr =>
    have herror := hr.readMany_of_error hmax hdeny hc min hrun hbefore hfirst
    refine ⟨fun ws hws => ?_, fun e he err herr =>
      ⟨before, first, after, vs, cause, hrun, hbefore, hfirst, herror⟩⟩
    rw [herror] at hws
    cases hws

end Lists

/-! ### Series -/

/-- Reads the members of a series, up to where its entries begin. -/
def Series.readHead (s : Series) : ReadM (Tuple s.record.members) :=
  withChildren fun child => readTuple child s.record.members

theorem Series.isTagged (s : Series) : s.record.choice.IsTagged := by
  cases s <;> decide

section Series

variable {s : Series} {r r₁ r₂ : Reading} {values : Tuple s.record.members}

/-- Behind the members of a series come its entries. -/
theorem Series.read_of_entries {entries : List s.record.choice.Carrier}
    (hhead : s.readHead r = (.ok values, r₁))
    (hentries : readChoices (readLevels r.levelsBelow) s.record.choice s.record.min r₁ =
      (.ok entries, r₂))
    {v : (Content.series s).Carrier} {n : Nat} {r' : Reading}
    (h : (Content.series s).read r = (.ok (v, n), r')) :
    s.record.toParts v = (values, entries) := by
  have hcontent : readContent (readLevels r.levelsBelow) (.series s) r =
      (.ok (s.record.ofParts (values, entries)), r₂) :=
    (Fallible.bind_of_ok hhead).trans (Fallible.bind_of_ok hentries)
  unfold Content.read readLevels at h
  rw [Fallible.bind_of_ok hcontent] at h
  rcases hend : finishElement r₂ with ⟨err | _, r₃⟩
  · rw [Fallible.bind_of_error hend] at h
    cases h
  · rw [Fallible.bind_of_ok hend] at h
    cases h
    exact s.record.toParts_ofParts _

theorem Series.read_of_failed_entries {err : Error} (hhead : s.readHead r = (.ok values, r₁))
    (hentries : readChoices (readLevels r.levelsBelow) s.record.choice s.record.min r₁ =
      (.error err, r₂)) :
    ((Content.series s).read r).1 = .error err := by
  have hcontent : readContent (readLevels r.levelsBelow) (.series s) r = (.error err, r₂) :=
    (Fallible.bind_of_ok hhead).trans (Fallible.bind_of_error hentries)
  unfold Content.read readLevels
  rw [Fallible.bind_of_error hcontent]

theorem Series.read_of_failed_head {err : Error} (hhead : s.readHead r = (.error err, r₁)) :
    ((Content.series s).read r).1 = .error err := by
  have hcontent : readContent (readLevels r.levelsBelow) (.series s) r = (.error err, r₁) :=
    Fallible.bind_of_error hhead
  unfold Content.read readLevels
  rw [Fallible.bind_of_error hcontent]

/-- What was read of a series began with its members. -/
theorem Series.readHead_of_read {v : (Content.series s).Carrier} {n : Nat} {r' : Reading}
    (h : (Content.series s).read r = (.ok (v, n), r')) :
    ∃ r₁, s.readHead r = (.ok (s.record.toParts v).1, r₁) := by
  rcases hhead : s.readHead r with ⟨err | values, r₁⟩
  case error =>
    have hfail := s.read_of_failed_head hhead
    rw [h] at hfail
    cases hfail
  case ok =>
    rcases hentries : readChoices (readLevels r.levelsBelow) s.record.choice s.record.min r₁ with
      ⟨err | entries, r₂⟩
    case error =>
      have hfail := s.read_of_failed_entries hhead hentries
      rw [h] at hfail
      cases hfail
    case ok =>
      rw [s.read_of_entries hhead hentries h]
      exact ⟨r₁, rfl⟩

/-- The entries of a series that was read are those read behind its members, and where those
fail, so does the series. -/
theorem Series.read_of_head (h : s.readHead r = (.ok values, r₁))
    (hlevels : r₁.levelsBelow = r.levelsBelow) :
    (∀ v n r', (Content.series s).read r = (.ok (v, n), r') →
      (s.record.choice.readMany s.record.min r₁).1 = .ok (s.record.toParts v).2) ∧
    ∀ err, (s.record.choice.readMany s.record.min r₁).1 = .error err →
      ((Content.series s).read r).1 = .error err := by
  have hmany : s.record.choice.readMany s.record.min r₁ =
      readChoices (readLevels r.levelsBelow) s.record.choice s.record.min r₁ := by
    rw [← hlevels]
    rfl
  rw [hmany]
  rcases hentries : readChoices (readLevels r.levelsBelow) s.record.choice s.record.min r₁ with
    ⟨err | entries, r₂⟩
  case error =>
    have hfail := s.read_of_failed_entries h hentries
    refine ⟨fun v n r' hv => ?_, fun err' herr => ?_⟩
    · rw [hv] at hfail
      cases hfail
    · cases herr
      exact hfail
  case ok =>
    refine ⟨fun v n r' hv => ?_, nofun⟩
    rw [s.read_of_entries h hentries hv]

end Series

/-- **A tagged choice takes exactly the run of its tags, in order.** A list of such a choice
holds what the next children load to, each as the alternative whose tag it has, up to the first
child with another name; a child among them that does not load makes the list fail, and then
it is left as it was. The entries of a filter or a rule are read so behind its members. -/
theorem Reading.Reachable.takes_tagged_run {root : Element} {o : LoadOptions} {r : Reading}
    (h : r.Reachable root o) :
    (∀ c : Choice, c.IsTagged → ∀ (min : Nat) (held : List c.Carrier),
      let slot := (c.readMany min).into (held, r)
      r.TakesRun o c min (slot.1.map fun _ => slot.2.1) ∧
      (∀ err, slot.1 = .error err → slot.2.1 = held) ∧
      ∀ vs, (r.taggedRun c).Forall₂ (fun e v => c.LoadsAs (r.left o) e (.ok v)) vs →
        min ≤ vs.length → (r.taggedRun c ≠ [] → r.cursor.depth < o.maxDepth) →
        slot.1 = .ok () ∧ slot.2.1 = vs) ∧
    ∀ s : Series,
      (∀ v n r', (Content.series s).read r = (.ok (v, n), r') →
        ∃ r₁, s.readHead r = (.ok (s.record.toParts v).1, r₁)) ∧
      ∀ values r₁, s.readHead r = (.ok values, r₁) →
        r₁.TakesRun o s.record.choice s.record.min
          (((Content.series s).read r).1.map fun p => (s.record.toParts p.1).2) := by
  obtain ⟨hr, hmax, hdeny⟩ := h.sound
  refine ⟨fun c hc min held => ?_, fun s =>
    ⟨fun v n r' => s.readHead_of_read, fun values r₁ hhead => ?_⟩⟩
  · have htakes := hr.takesRun hmax hdeny hc min
    rcases hread : c.readMany min r with ⟨err | vs, r'⟩
    case error =>
      rw [hread] at htakes
      rw [Fallible.into_of_error hread]
      refine ⟨htakes, fun _ _ => rfl, fun vs hvs henough hroom => ?_⟩
      have hok := hr.readMany_of_entries hmax hdeny hc min hvs hroom
      rw [if_neg (Nat.not_lt.mpr henough), hread] at hok
      cases hok
    case ok =>
      rw [hread] at htakes
      rw [Fallible.into_of_ok hread]
      refine ⟨htakes, fun err herr => (nomatch herr), fun ws hws henough hroom => ?_⟩
      have hok := hr.readMany_of_entries hmax hdeny hc min hws hroom
      rw [if_neg (Nat.not_lt.mpr henough), hread] at hok
      exact ⟨rfl, Except.ok.inj hok⟩
  · obtain ⟨_, -, hwithin, -⟩ := (readTuple_follows (readLevels_child r.site)
      s.record.members).of_ok hr.shows hhead
    have hlevels : r₁.levelsBelow = r.levelsBelow := by
      show r₁.cursor.maxDepth - r₁.cursor.depth = r.cursor.maxDepth - r.cursor.depth
      rw [hwithin.maxDepth, hwithin.depth]
    have htakes := (hr.of_within hwithin).takesRun (hwithin.maxDepth.trans hmax)
      (hwithin.denyUnknown.trans hdeny) s.isTagged s.record.min
    obtain ⟨hok, herror⟩ := s.read_of_head hhead hlevels
    refine htakes.of_later (fun vs hvs => ?_) fun err herr => ?_
    · rcases hread : (Content.series s).read r with ⟨err | ⟨v, n⟩, r'⟩
      · rw [hread] at hvs
        cases hvs
      · rw [hread] at hvs
        cases hvs
        exact hok v n r' hread
    · rw [herror err herr]
      rfl

/-- Matches of one type under different names keep their names and their order, and the list
ends before the first child that is no match. -/
theorem Reading.Reachable.takes_tagged_run_rule :
    let fresh : Element := { name := "tcp", attributes := [("state", "NEW")] }
    let known : Element := { name := "udp", attributes := [("state", "ESTABLISHED")] }
    let rule : Element := { name := "rule", children := [
      .element fresh, .text " ", .element known, .element fresh, .element { name := "note" },
      .element known] }
    let r := Reading.start rule 2 false
    ((Choice.ruleMatch.readMany 1).into ([.all {}], r)).2.1 = [.tcp { state := some "NEW" },
      .udp { state := some "ESTABLISHED" }, .tcp { state := some "NEW" }] := by
  intro fresh known rule r
  have h := Reading.Reachable.takes_tagged_run (r := r) (o := { maxDepth := 2 }) (.start)
  obtain ⟨-, -, hfill⟩ := h.1 .ruleMatch (by decide) 1 [.all {}]
  have hfresh : Choice.ruleMatch.LoadsAs { maxDepth := 1 } fresh
      (.ok (.tcp { state := some "NEW" })) := ⟨⟨4, by decide⟩, rfl, rfl⟩
  have hknown : Choice.ruleMatch.LoadsAs { maxDepth := 1 } known
      (.ok (.udp { state := some "ESTABLISHED" })) := ⟨⟨5, by decide⟩, rfl, rfl⟩
  have hrun : r.taggedRun .ruleMatch = [fresh, known, fresh] := by decide
  have hleft : r.left { maxDepth := 2 } = { maxDepth := 1 } := rfl
  rw [hrun, hleft] at hfill
  have hentries := hfill _ (.cons hfresh (.cons hknown (.cons hfresh .nil))) (by decide)
    fun _ => by decide
  exact hentries.2

end Schema

end GuestXml
