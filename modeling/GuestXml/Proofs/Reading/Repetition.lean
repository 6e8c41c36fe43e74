import GuestXml.Proofs.Reading.Advance
import GuestXml.Proofs.Reading.TaggedRun

/-!
# Repeated choices

A choice is read over and over by turns (`Choice.turn`). In a turn there is a next child. If
all alternatives have tags, the choice is read if the child has one of them. If not, tags do
not tell whether an alternative accepts the child, so the choice is tried; a value that consumed
no element is then the last. Nothing in a turn bounds their number: a repetition runs as long as
turns go on (`Choice.Repeats`), and what it has done then is its course (`Course`).

* `Reading.Sound.advances_of_next`: a turn that goes on has moved the reading on by a child, and
  so each repetition has a course (`Reading.Sound.exists_repeats`) and no other
  (`Choice.Repeats.unique`).
* `Choice.Repeats.inPlace`: there are no more turns than children, and a turn without a value
  leaves the reading where the last value has led.
* `Choice.Repeats.readMany_eq`: the reader of lists, which counts children beforehand, comes to
  what the course does.
* `Reading.Reachable.repetition_ends`: so it is wherever a repetition begins.
-/

namespace GuestXml

theorem Cursor.exists_remaining {cursor : Cursor} {e : Xml.Element} (h : cursor.peek? = some e) :
    ∃ more, cursor.remaining = e :: more :=
  List.head?_eq_some_iff.mp h

theorem Cursor.remaining_ne_nil {cursor : Cursor} {e : Xml.Element} (h : cursor.peek? = some e) :
    cursor.remaining ≠ [] := by
  obtain ⟨more, hrest⟩ := Cursor.exists_remaining h
  rw [hrest]
  exact List.cons_ne_nil e more

theorem Cursor.remaining_eq_nil {cursor : Cursor} (h : cursor.peek? = none) :
    cursor.remaining = [] :=
  List.head?_eq_none_iff.mp h

namespace Schema

open Xml (Element)

/-! ### Turns -/

/-- What one turn comes to, and the reading it leads to. -/
inductive Turn (α : Type) where
  /-- A value was read, and there may be more. -/
  | next (value : α) (r : Reading)
  /-- A value was read, and no element was consumed for it. -/
  | last (value : α) (r : Reading)
  /-- No alternative accepts the child. -/
  | refused (r : Reading)
  /-- The repetition as a whole fails. -/
  | failed (err : Error) (r : Reading)
  deriving DecidableEq

/-- Makes a turn at the next child. -/
def Choice.turn (c : Choice) (e : Element) (r : Reading) : Turn c.Carrier :=
  if c.IsTagged then
    if c.isTag e.name then
      match c.read r with
      | (.ok value, r') => .next value r'
      | (.error err, r') => .failed err r'
    else .refused r
  else
    match c.read r with
    | (.ok value, r') => if r'.consumed = r.consumed then .last value r' else .next value r'
    | (.error err, r') => if err.isFatal then .failed err r' else .refused r'

section Turns

variable {c : Choice}

/-- The turns of a choice all of whose alternatives have tags. -/
theorem Choice.turn_of_isTagged (hc : c.IsTagged) (e : Element) (r : Reading) :
    match c.turn e r with
    | .next v r' => c.isTag e.name = true ∧ c.read r = (.ok v, r')
    | .last _ _ => False
    | .refused r' => c.isTag e.name = false ∧ r' = r
    | .failed err r' => c.isTag e.name = true ∧ c.read r = (.error err, r') := by
  unfold Choice.turn
  rw [if_pos hc]
  by_cases htag : c.isTag e.name = true
  · rw [if_pos htag]
    rcases hread : c.read r with ⟨err | v, r'⟩ <;> exact ⟨htag, rfl⟩
  · rw [if_neg htag]
    exact ⟨Bool.eq_false_iff.mpr htag, rfl⟩

/-- The turns of a choice with an alternative without a tag. -/
theorem Choice.turn_of_not_isTagged (hc : ¬c.IsTagged) (e : Element) (r : Reading) :
    match c.turn e r with
    | .next v r' => c.read r = (.ok v, r') ∧ r'.consumed ≠ r.consumed
    | .last v r' => c.read r = (.ok v, r') ∧ r'.consumed = r.consumed
    | .refused r' => ∃ err, c.read r = (.error err, r') ∧ err.isFatal = false
    | .failed err r' => c.read r = (.error err, r') ∧ err.isFatal = true := by
  unfold Choice.turn
  rw [if_neg hc]
  rcases hread : c.read r with ⟨err | v, r'⟩
  case error =>
    dsimp only
    by_cases hfatal : err.isFatal = true
    · rw [if_pos hfatal]
      exact ⟨rfl, hfatal⟩
    · rw [if_neg hfatal]
      exact ⟨err, rfl, Bool.eq_false_iff.mpr hfatal⟩
  case ok =>
    dsimp only
    by_cases hstay : r'.consumed = r.consumed
    · rw [if_pos hstay]
      exact ⟨rfl, hstay⟩
    · rw [if_neg hstay]
      exact ⟨rfl, hstay⟩

end Turns

/-- No alternative can be read where the reading stands. -/
def Choice.Refuses (c : Choice) (r : Reading) : Prop :=
  ∀ a ∈ c.variants.alternatives, ∃ err, (a.attempt r).1 = .error err ∧ err.isFatal = false

theorem Choice.Refuses.of_rejects {c : Choice} {r : Reading}
    (h : ∀ a ∈ c.variants.alternatives, Rejects (readLevels r.levelsBelow) r a) : c.Refuses r := by
  intro a ha
  obtain ⟨err, herr, hfatal⟩ := h a ha
  exact ⟨err, congrArg Prod.fst ((a.attempt_eq r).trans herr), hfatal⟩

namespace Reading.Sound

variable {c : Choice} {e : Element} {r r' : Reading} (hr : r.Sound)

include hr

/-- A choice that fails leaves the reading where it is. -/
theorem eq_of_read_error {err : Error} (h : c.read r = (.error err, r')) : r' = r :=
  ((readChoice_follows (readLevels_child r.site) c).of_error hr.shows h).2

/-- If a choice fails without a fatal error, no alternative can be read. -/
theorem refuses_of_read {err : Error} (h : c.read r = (.error err, r'))
    (herr : err.isFatal = false) : c.Refuses r := by
  rw [c.read_eq] at h
  rcases hfirst : readFirst (readLevels r.levelsBelow) c.name c.variants.alternatives r with
    ⟨err' | w, r₁⟩
  case ok =>
    rw [readChoice_of_eq hfirst] at h
    cases h
  case error =>
    rw [readChoice_of_eq hfirst] at h
    cases h
    refine .of_rejects (rejects_of_readFirst (fun a _ err' r₁ herr' => ?_) hfirst herr)
    exact (hr.attempt_error ((a.attempt_eq r).trans herr')).1

/-- Without the tag of the next child, no alternative can be read. -/
theorem refuses_of_isTag (hc : c.IsTagged) (hnext : r.cursor.peek? = some e)
    (htag : c.isTag e.name = false) : c.Refuses r := by
  refine .of_rejects fun a ha => ?_
  obtain ⟨tag, hatag⟩ := Option.ne_none_iff_exists'.mp (hc a ha)
  refine rejects_of_unnamed hr.shows hatag fun e' he' hname => ?_
  obtain rfl : e = e' := Option.some.inj (hnext.symm.trans he')
  refine Bool.false_ne_true (htag.symm.trans (List.any_eq_true.mpr ⟨a, ha, ?_⟩))
  rw [hatag, hname, decide_eq_true_eq]

/-- The alternative with the tag of the next child takes that child, and no other. -/
theorem remaining_of_isTag (hc : c.IsTagged) {more : List Element}
    (hrest : r.cursor.remaining = e :: more) (htag : c.isTag e.name = true) {v : c.Carrier}
    (h : c.read r = (.ok v, r')) : r'.cursor.remaining = more := by
  obtain ⟨i, hi⟩ := Choice.exists_index htag
  obtain ⟨hok, herror⟩ := readChoice_of_tag hc hr.shows hrest hi
  rw [c.read_eq] at h
  rcases hscan : r.site.scanAs e (c.variants.alternatives.get i) with err | ⟨w, n⟩
  · exact nomatch h.symm.trans (herror err hscan)
  · obtain ⟨r₁, s₁, hr₁, hs₁, hmore⟩ := hok w n hscan
    obtain ⟨-, rfl⟩ := Prod.mk.inj (h.symm.trans hr₁)
    exact hs₁.rest.trans hmore

/-- **A turn that goes on has moved the reading on by a child.** With tags it is the one child;
without, the count tells. -/
theorem advances_of_next (hnext : r.cursor.peek? = some e) {v : c.Carrier}
    (h : c.turn e r = .next v r') :
    c.read r = (.ok v, r') ∧ ∃ children, r.Advances children r' ∧ children ≠ [] := by
  by_cases hc : c.IsTagged
  · have hturn := Choice.turn_of_isTagged hc e r
    rw [h] at hturn
    obtain ⟨htag, hread⟩ := hturn
    obtain ⟨more, hrest⟩ := Cursor.exists_remaining hnext
    obtain ⟨children, hadvances⟩ := hr.advances_of_read hread
    refine ⟨hread, children, hadvances, ?_⟩
    -- Without a child passed, the one with the tag would still be the next.
    rintro rfl
    have hsame := hadvances.remaining
    rw [hrest, hr.remaining_of_isTag hc hrest htag hread] at hsame
    exact List.cons_ne_self e more hsame
  · have hturn := Choice.turn_of_not_isTagged hc e r
    rw [h] at hturn
    obtain ⟨hread, hmoved⟩ := hturn
    obtain ⟨children, hadvances⟩ := hr.advances_of_read hread
    exact ⟨hread, children, hadvances, fun hnil => hmoved (hadvances.consumed_eq_iff.mpr hnil)⟩

theorem advances_of_last {v : c.Carrier} (h : c.turn e r = .last v r') :
    c.read r = (.ok v, r') ∧ r.Advances [] r' := by
  by_cases hc : c.IsTagged
  · have hturn := Choice.turn_of_isTagged hc e r
    rw [h] at hturn
    exact hturn.elim
  · have hturn := Choice.turn_of_not_isTagged hc e r
    rw [h] at hturn
    obtain ⟨hread, hstay⟩ := hturn
    obtain ⟨children, hadvances⟩ := hr.advances_of_read hread
    obtain rfl := hadvances.consumed_eq_iff.mp hstay
    exact ⟨hread, hadvances⟩

/-- **A turn that is refused changes nothing.** -/
theorem refuses_of_refused (hnext : r.cursor.peek? = some e) (h : c.turn e r = .refused r') :
    r' = r ∧ c.Refuses r := by
  by_cases hc : c.IsTagged
  · have hturn := Choice.turn_of_isTagged hc e r
    rw [h] at hturn
    exact ⟨hturn.2, hr.refuses_of_isTag hc hnext hturn.1⟩
  · have hturn := Choice.turn_of_not_isTagged hc e r
    rw [h] at hturn
    obtain ⟨err, hread, hfatal⟩ := hturn
    exact ⟨hr.eq_of_read_error hread, hr.refuses_of_read hread hfatal⟩

theorem read_of_failed {err : Error} (h : c.turn e r = .failed err r') :
    r' = r ∧ c.read r = (.error err, r) := by
  have hread : c.read r = (.error err, r') := by
    by_cases hc : c.IsTagged
    · have hturn := Choice.turn_of_isTagged hc e r
      rw [h] at hturn
      exact hturn.2
    · have hturn := Choice.turn_of_not_isTagged hc e r
      rw [h] at hturn
      exact hturn.1
  obtain rfl := hr.eq_of_read_error hread
  exact ⟨rfl, hread⟩

end Reading.Sound

/-! ### Courses -/

/-- How a repetition ends. -/
inductive Ending where
  /-- No child is left. -/
  | done
  /-- The last value was read without a child. -/
  | idle
  /-- No alternative accepts the next child. -/
  | refused
  /-- It fails. -/
  | failed (err : Error)
  deriving DecidableEq

/-- What a repetition has done when it ends. -/
structure Course (α : Type) where
  turns : Nat
  /-- The values, each with the reading it led to. -/
  values : List (α × Reading)
  ending : Ending
  /-- The reading in the end. -/
  final : Reading

namespace Course

variable {α : Type}

/-- The course with one turn more, in which the first of its values was read. -/
def prepend (value : α) (r : Reading) (course : Course α) : Course α :=
  { course with turns := course.turns + 1, values := (value, r) :: course.values }

/-- What the repetition comes to. -/
def outcome (course : Course α) : Except Error (List α) :=
  match course.ending with
  | .failed err => .error err
  | _ => .ok (course.values.map Prod.fst)

end Course

/-- A repetition of a choice takes a course from a reading on. -/
inductive Choice.Repeats (c : Choice) : Reading → Course c.Carrier → Prop where
  | done {r : Reading} (hnext : r.cursor.peek? = none) :
    Repeats c r { turns := 0, values := [], ending := .done, final := r }
  | next {r r' : Reading} {e : Element} {v : c.Carrier} {course : Course c.Carrier}
    (hnext : r.cursor.peek? = some e) (hturn : c.turn e r = .next v r')
    (hmore : Repeats c r' course) : Repeats c r (course.prepend v r')
  | last {r r' : Reading} {e : Element} {v : c.Carrier}
    (hnext : r.cursor.peek? = some e) (hturn : c.turn e r = .last v r') :
    Repeats c r { turns := 1, values := [(v, r')], ending := .idle, final := r' }
  | refused {r r' : Reading} {e : Element}
    (hnext : r.cursor.peek? = some e) (hturn : c.turn e r = .refused r') :
    Repeats c r { turns := 1, values := [], ending := .refused, final := r' }
  | failed {r r' : Reading} {e : Element} {err : Error}
    (hnext : r.cursor.peek? = some e) (hturn : c.turn e r = .failed err r') :
    Repeats c r { turns := 1, values := [], ending := .failed err, final := r' }

/-- The reading behind values that were read one after the other. -/
def Reading.behind {α : Type} (r : Reading) : List (α × Reading) → Reading
  | [] => r
  | (_, r') :: values => r'.behind values

/-- Every repetition takes a course, since turns that go on leave fewer children. By induction on
the number of children. -/
theorem Reading.Sound.exists_repeats {r : Reading} (hr : r.Sound) (c : Choice) :
    ∃ course, c.Repeats r course := by
  induction hn : r.cursor.remaining.length using Nat.strongRecOn generalizing r with
  | ind n ih =>
    cases hnext : r.cursor.peek? with
    | none => exact ⟨_, .done hnext⟩
    | some e =>
      cases hturn : c.turn e r with
      | next v r' =>
        obtain ⟨-, children, hadvances, hchildren⟩ := hr.advances_of_next hnext hturn
        have hfewer := hadvances.length_lt hchildren
        obtain ⟨course, hcourse⟩ := ih _ (hn ▸ hfewer) (hr.of_within hadvances.within) rfl
        exact ⟨_, .next hnext hturn hcourse⟩
      | last v r' => exact ⟨_, .last hnext hturn⟩
      | refused r' => exact ⟨_, .refused hnext hturn⟩
      | failed err r' => exact ⟨_, .failed hnext hturn⟩

namespace Choice.Repeats

variable {c : Choice} {r : Reading} {course course' : Course c.Carrier}

/-- A course begins with the only turn there is. -/
theorem eq_of_turn (h : c.Repeats r course) :
    match r.cursor.peek? with
    | none => course = { turns := 0, values := [], ending := .done, final := r }
    | some e =>
      match c.turn e r with
      | .next v r' => ∃ more, c.Repeats r' more ∧ course = more.prepend v r'
      | .last v r' => course = { turns := 1, values := [(v, r')], ending := .idle, final := r' }
      | .refused r' => course = { turns := 1, values := [], ending := .refused, final := r' }
      | .failed err r' =>
        course = { turns := 1, values := [], ending := .failed err, final := r' } := by
  cases h with
  | done hnext => simp only [hnext]
  | next hnext hturn hmore =>
    simp only [hnext, hturn]
    exact ⟨_, hmore, rfl⟩
  | last hnext hturn => simp only [hnext, hturn]
  | refused hnext hturn => simp only [hnext, hturn]
  | failed hnext hturn => simp only [hnext, hturn]

theorem unique (h : c.Repeats r course) (h' : c.Repeats r course') : course' = course := by
  induction h generalizing course' with
  | done hnext =>
    have heq := h'.eq_of_turn
    simp only [hnext] at heq
    exact heq
  | next hnext hturn hmore ih =>
    have heq := h'.eq_of_turn
    simp only [hnext, hturn] at heq
    obtain ⟨more, hmore', rfl⟩ := heq
    rw [ih hmore']
  | last hnext hturn | refused hnext hturn | failed hnext hturn =>
    have heq := h'.eq_of_turn
    simp only [hnext, hturn] at heq
    exact heq

end Choice.Repeats

/-! ### Keeping the place -/

/-- What holds of the course that a repetition takes from a reading on. -/
structure Course.InPlace {c : Choice} (r : Reading) (course : Course c.Carrier) : Prop where
  /-- For each turn there is a child. -/
  turns : course.turns ≤ r.cursor.remaining.length
  /-- Each value is what the choice comes to behind those before it. It has moved the reading on
  by a child, unless it is the value that the repetition ends with. -/
  values : ∀ before v r' after, course.values = before ++ (v, r') :: after →
    c.read (r.behind before) = (.ok v, r') ∧
      ∃ children, (r.behind before).Advances children r' ∧
        (children = [] ↔ after = [] ∧ course.ending = .idle)
  /-- Nothing has happened behind the last value. -/
  final : course.final = r.behind course.values
  done : course.ending = .done → course.final.cursor.remaining = []
  idle : course.ending = .idle → course.values ≠ []
  refused : course.ending = .refused →
    course.final.cursor.remaining ≠ [] ∧ c.Refuses course.final
  failed : ∀ err, course.ending = .failed err →
    course.final.cursor.remaining ≠ [] ∧ c.read course.final = (.error err, course.final)

namespace Course.InPlace

variable {c : Choice} {r r' : Reading} {course : Course c.Carrier}

/-- A course without values ends where it begins. -/
theorem of_values_nil {turns : Nat} {ending : Ending}
    (hturns : turns ≤ r.cursor.remaining.length)
    (hdone : ending = .done → r.cursor.remaining = []) (hidle : ending ≠ .idle)
    (hrefused : ending = .refused → r.cursor.remaining ≠ [] ∧ c.Refuses r)
    (hfailed : ∀ err, ending = .failed err →
      r.cursor.remaining ≠ [] ∧ c.read r = (.error err, r)) :
    InPlace (c := c) r { turns, values := [], ending, final := r } where
  turns := hturns
  values _ _ _ _ h := nomatch (List.append_eq_nil_iff.mp h.symm).2
  final := rfl
  done := hdone
  idle h := absurd h hidle
  refused := hrefused
  failed := hfailed

/-- A turn that goes on comes before a course that is in place. -/
theorem prepend {v : c.Carrier} {children : List Element} (hread : c.read r = (.ok v, r'))
    (hadvances : r.Advances children r') (hchildren : children ≠ [])
    (h : course.InPlace r') : (course.prepend v r').InPlace r where
  turns := Nat.succ_le_of_lt (Nat.lt_of_le_of_lt h.turns (hadvances.length_lt hchildren))
  values before w r'' after heq := by
    cases before with
    | nil =>
      obtain ⟨hhead, rfl⟩ := List.cons.inj heq
      cases hhead
      -- A course that ends idle has a value, which is then behind this one.
      refine ⟨hread, children, hadvances, ?_⟩
      constructor
      · exact fun hnil => absurd hnil hchildren
      · exact fun hend => absurd hend.1 (h.idle hend.2)
    | cons p before =>
      obtain ⟨rfl, hmore⟩ := List.cons.inj heq
      exact h.values before w r'' after hmore
  final := h.final
  done := h.done
  idle _ := List.cons_ne_nil _ _
  refused := h.refused
  failed := h.failed

end Course.InPlace

/-- **A repetition keeps its place.** By induction on its course. -/
theorem Choice.Repeats.inPlace {c : Choice} {r : Reading} {course : Course c.Carrier}
    (h : c.Repeats r course) (hr : r.Sound) : course.InPlace r := by
  induction h with
  | done hnext =>
    exact .of_values_nil (Nat.zero_le _) (fun _ => Cursor.remaining_eq_nil hnext) nofun nofun nofun
  | next hnext hturn hmore ih =>
    obtain ⟨hread, children, hadvances, hchildren⟩ := hr.advances_of_next hnext hturn
    exact (ih (hr.of_within hadvances.within)).prepend hread hadvances hchildren
  | last hnext hturn =>
    obtain ⟨hread, hadvances⟩ := hr.advances_of_last hturn
    have hleft := Cursor.remaining_ne_nil hnext
    refine ⟨List.length_pos_iff.mpr hleft, fun before w r'' after heq => ?_, rfl, nofun,
      fun _ => List.cons_ne_nil _ _, nofun, nofun⟩
    cases before with
    | nil =>
      cases heq
      exact ⟨hread, [], hadvances, iff_of_true rfl ⟨rfl, rfl⟩⟩
    | cons p before =>
      exact nomatch (List.append_eq_nil_iff.mp (List.cons.inj heq).2.symm).2
  | refused hnext hturn =>
    obtain ⟨rfl, hrefuses⟩ := hr.refuses_of_refused hnext hturn
    have hleft := Cursor.remaining_ne_nil hnext
    exact .of_values_nil (List.length_pos_iff.mpr hleft) nofun nofun (fun _ => ⟨hleft, hrefuses⟩)
      nofun
  | failed hnext hturn =>
    obtain ⟨rfl, hread⟩ := hr.read_of_failed hturn
    have hleft := Cursor.remaining_ne_nil hnext
    refine .of_values_nil (List.length_pos_iff.mpr hleft) nofun nofun nofun fun err herr => ?_
    cases herr
    exact ⟨hleft, hread⟩

/-! ### The reader of lists -/

theorem Reading.Within.levelsBelow {r r' : Reading} (h : r.Within r') :
    r'.levelsBelow = r.levelsBelow := by
  unfold Reading.levelsBelow
  rw [h.maxDepth, h.depth]

theorem Choice.tags?_eq_none {c : Choice} (hc : ¬c.IsTagged) : c.tags? = none := by
  cases htags : c.tags? with
  | none => rfl
  | some tags =>
    have hmap := mapM_tag?_eq_some_iff.mp htags
    refine absurd (fun a ha hnone => ?_) hc
    have hmem : a.tag? ∈ tags.map some := hmap ▸ List.mem_map_of_mem ha
    rw [hnone] at hmem
    obtain ⟨tag, -, htag⟩ := List.mem_map.mp hmem
    cases htag

theorem readChoices_of_not_isTagged {c : Choice} (hc : ¬c.IsTagged)
    (child : (t : Content) → ReadM t.Carrier) (min : Nat) (r : Reading) :
    readChoices child c min r =
      (do let values ← readWhileTaken (readChoice child c) r.cursor.remaining.length
          checkMin c.name min values.length
          return values : ReadM (List c.Carrier)) r := by
  have hview : Fallible.view (·.cursor.remaining) r = (.ok r.cursor.remaining, r) := rfl
  unfold readChoices
  rw [Fallible.bind_of_ok hview, Choice.tags?_eq_none hc]

/-- A list, checked to be long enough in an element. -/
def checkedList {α : Type} (parent name : String) (min : Nat) (values : List α) :
    Except Error (List α) :=
  if values.length < min then .error (.cardinality parent name min values.length) else .ok values

/-- Once its values are read, a list is checked. -/
theorem checkMin_of_eq {α : Type} {read : ReadM (List α)} {r r' : Reading}
    {result : Except Error (List α)} (h : read r = (result, r')) (hwithin : r.Within r')
    (name : String) (min : Nat) :
    (do let values ← read
        checkMin name min values.length
        return values : ReadM (List α)) r =
      (result.bind (checkedList r.current.name name min), r') := by
  cases result with
  | error err => exact Fallible.bind_of_error h
  | ok values =>
    have hcurrent : r'.current = r.current := hwithin.element
    rw [Fallible.bind_of_ok h]
    by_cases hfew : values.length < min
    · have hcheck : checkMin name min values.length r' =
          (.error (.cardinality r.current.name name min values.length), r') := by
        rw [checkMin, if_pos hfew, hcurrent]
      rw [Fallible.bind_of_error hcheck]
      show _ = (checkedList r.current.name name min values, r')
      rw [checkedList, if_pos hfew]
    · have hcheck : checkMin name min values.length r' = (.ok (), r') := by
        rw [checkMin, if_neg hfew]
      rw [Fallible.bind_of_ok hcheck]
      show _ = (checkedList r.current.name name min values, r')
      rw [checkedList, if_neg hfew]
      rfl

/-- A value goes in front of what the others come to. -/
theorem Course.map_outcome_prepend {α : Type} (course : Course α) (value : α) (r : Reading) :
    (course.prepend value r).outcome = course.outcome.map (value :: ·) := by
  obtain ⟨turns, values, ending, final⟩ := course
  cases ending <;> rfl

theorem map_cons_of_eq {α : Type} {read : ReadM (List α)} {r r' : Reading}
    {result : Except Error (List α)} (h : read r = (result, r')) (value : α) :
    ((value :: ·) <$> read) r = (result.map (value :: ·), r') := by
  rw [map_eq_pure_bind]
  cases result with
  | ok values => exact Fallible.bind_of_ok h
  | error err => exact Fallible.bind_of_error h

/-- What a reader comes to that has made a turn and leaves the rest of the turns to another. -/
def Turn.andThen {α : Type} (rest : ReadM (List α)) : Turn α → Except Error (List α) × Reading
  | .next value r => ((value :: ·) <$> rest) r
  | .last value r => (.ok [value], r)
  | .refused r => (.ok [], r)
  | .failed err r => (.error err, r)

/-- Reads all next children that have tags of a choice. -/
def readTagged (child : (t : Content) → ReadM t.Carrier) (c : Choice) : ReadM (List c.Carrier) :=
  fun r => ((r.taggedRun c).mapM fun _ => readChoice child c) r

theorem readTagged_of_nil {child : (t : Content) → ReadM t.Carrier} {c : Choice} {r : Reading}
    (h : r.taggedRun c = []) : readTagged child c r = (.ok [], r) := by
  show (List.mapM _ (r.taggedRun c) : ReadM (List c.Carrier)) r = _
  rw [h]
  rfl

section Unfolding

variable {c : Choice} {e : Element} {r : Reading} (hnext : r.cursor.peek? = some e)

include hnext

theorem readWhileTaken_eq_turn (hc : ¬c.IsTagged) (n : Nat) :
    let read := readWhileTaken (readChoice (readLevels r.levelsBelow) c)
    read (n + 1) r = (c.turn e r).andThen (read n) := by
  intro read
  have hleft : ¬r.cursor.remaining.isEmpty = true := by
    rw [List.isEmpty_iff]
    exact Cursor.remaining_ne_nil hnext
  unfold Choice.turn
  rw [if_neg hc, c.read_eq]
  show readWhileTaken _ (n + 1) r = _
  unfold readWhileTaken
  rw [if_neg hleft]
  rcases readChoice (readLevels r.levelsBelow) c r with ⟨err | v, r'⟩ <;> dsimp only <;>
    split <;> rfl

theorem readTagged_eq_turn (hr : r.Sound) (hc : c.IsTagged) :
    let read := readTagged (readLevels r.levelsBelow) c
    read r = (c.turn e r).andThen read := by
  intro read
  obtain ⟨more, hrest⟩ := Cursor.exists_remaining hnext
  unfold Choice.turn
  rw [if_pos hc]
  by_cases htag : c.isTag e.name = true
  · have hrun : r.taggedRun c = e :: more.takeWhile fun e => c.isTag e.name := by
      rw [Reading.taggedRun, hrest]
      exact List.takeWhile_cons_of_pos htag
    have hread : read r = ((e :: more.takeWhile fun e => c.isTag e.name).mapM fun _ =>
        readChoice (readLevels r.levelsBelow) c) r := by
      rw [← hrun]
      rfl
    rw [if_pos htag, hread, List.mapM_cons]
    rcases hfirst : c.read r with ⟨err | v, r'⟩
    case error => exact Fallible.bind_of_error hfirst
    case ok =>
      have hmore : r'.taggedRun c = more.takeWhile fun e => c.isTag e.name := by
        rw [Reading.taggedRun, hr.remaining_of_isTag hc hrest htag hfirst]
      refine (Fallible.bind_of_ok hfirst).trans ?_
      rw [← map_eq_pure_bind, ← hmore]
      rfl
  · have hrun : r.taggedRun c = [] := by
      rw [Reading.taggedRun, hrest]
      exact List.takeWhile_cons_of_neg htag
    rw [if_neg htag]
    exact readTagged_of_nil hrun

end Unfolding

namespace Choice.Repeats

variable {c : Choice} {r : Reading} {course : Course c.Carrier}

theorem within (h : c.Repeats r course) (hr : r.Sound) : r.Within course.final := by
  induction h with
  | done => exact .refl _
  | next hnext hturn hmore ih =>
    obtain ⟨-, children, hadvances, -⟩ := hr.advances_of_next hnext hturn
    exact hadvances.within.trans (ih (hr.of_within hadvances.within))
  | last hnext hturn => exact (hr.advances_of_last hturn).2.within
  | refused hnext hturn =>
    obtain ⟨rfl, -⟩ := hr.refuses_of_refused hnext hturn
    exact .refl _
  | failed hnext hturn =>
    obtain ⟨rfl, -⟩ := hr.read_of_failed hturn
    exact .refl _

/-- A reader that makes turns takes the course, if it may make as many. By induction on the
course. -/
theorem read_eq (h : c.Repeats r course) (hr : r.Sound) {levels : Nat}
    {read : Nat → ReadM (List c.Carrier)}
    (hdone : ∀ n r, r.cursor.peek? = none → read n r = (.ok [], r))
    (hread : ∀ n r e, r.Sound → r.levelsBelow = levels → r.cursor.peek? = some e →
      read (n + 1) r = (c.turn e r).andThen (read n))
    (hlevels : r.levelsBelow = levels) {n : Nat} (hn : course.turns ≤ n) :
    read n r = (course.outcome, course.final) := by
  induction h generalizing n with
  | done hnext => exact hdone n _ hnext
  | @next r r' e v course hnext hturn hmore ih =>
    obtain ⟨n, rfl⟩ := Nat.exists_eq_succ_of_ne_zero (Nat.ne_zero_of_lt hn)
    obtain ⟨-, children, hadvances, -⟩ := hr.advances_of_next hnext hturn
    have hothers := ih (hr.of_within hadvances.within)
      (hadvances.within.levelsBelow.trans hlevels) (Nat.le_of_succ_le_succ hn)
    rw [hread n r e hr hlevels hnext, hturn, Course.map_outcome_prepend]
    exact map_cons_of_eq hothers v
  | last hnext hturn | refused hnext hturn | failed hnext hturn =>
    obtain ⟨n, rfl⟩ := Nat.exists_eq_succ_of_ne_zero (Nat.ne_zero_of_lt hn)
    rw [hread n _ _ hr hlevels hnext, hturn]
    rfl

theorem readTagged_eq (h : c.Repeats r course) (hr : r.Sound) (hc : c.IsTagged) :
    readTagged (readLevels r.levelsBelow) c r = (course.outcome, course.final) := by
  -- The run is known beforehand, so this reader makes all turns whatever their number.
  let read (_ : Nat) := readTagged (readLevels r.levelsBelow) c
  have hdone (n : Nat) (r₁ : Reading) (hnext : r₁.cursor.peek? = none) :
      read n r₁ = (.ok [], r₁) := by
    refine readTagged_of_nil ?_
    rw [Reading.taggedRun, Cursor.remaining_eq_nil hnext]
    rfl
  have hread (n : Nat) (r₁ : Reading) (e : Element) (hr₁ : r₁.Sound)
      (hlevels : r₁.levelsBelow = r.levelsBelow) (hnext : r₁.cursor.peek? = some e) :
      read (n + 1) r₁ = (c.turn e r₁).andThen (read n) := by
    show readTagged _ c r₁ = (c.turn e r₁).andThen (readTagged _ c)
    rw [← hlevels]
    exact readTagged_eq_turn hnext hr₁ hc
  exact h.read_eq hr hdone hread rfl (Nat.le_refl _)

theorem readWhileTaken_eq (h : c.Repeats r course) (hr : r.Sound) (hc : ¬c.IsTagged) {most : Nat}
    (hmost : course.turns ≤ most) :
    readWhileTaken (readChoice (readLevels r.levelsBelow) c) most r =
      (course.outcome, course.final) := by
  refine h.read_eq hr (fun n r₁ hnext => ?_) (fun n r₁ e _ hlevels hnext => ?_) rfl hmost
  · cases n with
    | zero => rfl
    | succ n =>
      unfold readWhileTaken
      rw [Cursor.remaining_eq_nil hnext]
      rfl
  · rw [← hlevels]
    exact readWhileTaken_eq_turn hnext hc n

/-- **The reader of lists takes the course of the repetition.** -/
theorem readMany_eq (h : c.Repeats r course) (hr : r.Sound) (min : Nat) :
    c.readMany min r =
      (course.outcome.bind (checkedList r.current.name c.name min), course.final) := by
  show readChoices (readLevels r.levelsBelow) c min r = _
  by_cases hc : c.IsTagged
  · rw [readChoices_of_isTagged hc]
    exact checkMin_of_eq (h.readTagged_eq hr hc) (h.within hr) c.name min
  · rw [readChoices_of_not_isTagged hc]
    exact checkMin_of_eq (h.readWhileTaken_eq hr hc (h.inPlace hr).turns) (h.within hr) c.name min

end Choice.Repeats

/-! ### Repetitions wherever they begin -/

/-- **A repeated choice ends, and keeps its place.** An alternative that is read consumes elements
if and only if it moves the reading on, so a turn that goes on has passed a child. There is thus one
course that the repetition takes, with no more turns than children. At most the last of its values
was read without a child, and whatever ends it leaves the reading, with its position, its count and
the names asked for, as the last value did. A list of the choice comes to what the course does. -/
theorem Reading.Reachable.repetition_ends {root : Element} {o : LoadOptions} {r : Reading}
    (h : r.Reachable root o) (c : Choice) :
    (∀ a ∈ c.variants.alternatives, ∀ v r', a.attempt r = (.ok v, r') →
      ∃ children, r.Advances children r' ∧ (r'.consumed = r.consumed ↔ children = [])) ∧
    (∀ e v r', r.cursor.peek? = some e → c.turn e r = .next v r' →
      r'.Reachable root o ∧ ∃ children, r.Advances children r' ∧ children ≠ []) ∧
    ∃ course, c.Repeats r course ∧ (∀ course', c.Repeats r course' → course' = course) ∧
      course.InPlace r ∧
      ∀ min, c.readMany min r =
        (course.outcome.bind (checkedList r.current.name c.name min), course.final) := by
  have hr := h.sound.1
  refine ⟨fun a _ v r' hread => ?_, fun e v r' hnext hturn => ?_, ?_⟩
  · obtain ⟨children, hadvances⟩ := hr.advances_of_attempt hread
    exact ⟨children, hadvances, hadvances.consumed_eq_iff⟩
  · obtain ⟨hread, hadvances⟩ := hr.advances_of_next hnext hturn
    have hlast := ((Call.choice c).trace_orderly r hr).last
    rw [(Call.choice c).read_trace, show (Call.choice c).read r = _ from hread] at hlast
    exact ⟨h.passed (.choice c) hlast, hadvances⟩
  · obtain ⟨course, hcourse⟩ := hr.exists_repeats c
    exact ⟨course, hcourse, fun course' h' => hcourse.unique h', hcourse.inPlace hr,
      hcourse.readMany_eq hr⟩

/-- The source of a network image takes all hosts at its first turn, and the next one is a source
without hosts: it consumed nothing, so the repetition ends before the child behind the hosts. -/
theorem Reading.Reachable.repetition_ends_hosts :
    let host (name : String) : Element := { name := "host", attributes := [("name", name)] }
    let source : Element := { name := "source", attributes := [("protocol", "nbd")], children := [
      .element (host "a"), .text " ", .element (host "b"), .element { name := "auth" }] }
    let r := Reading.start source 2 false
    ∃ course, Choice.diskSource.Repeats r course ∧ course.InPlace r ∧ course.turns = 2 ∧
      course.values.map Prod.fst = [
        .network { protocol := .nbd, hosts := [{ name := "a" }, { name := "b" }] },
        .network { protocol := .nbd }] ∧
      course.final.cursor.remaining = [{ name := "auth" }] ∧ course.final.consumed = 2 ∧
      (Choice.diskSource.readMany 3 r).1 = .error (.cardinality "source" "DiskSource" 3 2) := by
  intro host source r
  have h := Reading.Reachable.repetition_ends (r := r) (o := { maxDepth := 2 }) (.start) .diskSource
  obtain ⟨-, -, course, hcourse, hunique, hplace, hmany⟩ := h
  let taken : Reading := { r with
    cursor := { r.cursor with top := { element := source, next := 3 } }
    consumed := 2
    requested := [(1, "host")] }
  have hnext : Choice.diskSource.turn (host "a") r =
    .next (.network { protocol := .nbd, hosts := [{ name := "a" }, { name := "b" }] }) taken := by
    decide
  have hlast : Choice.diskSource.turn { name := "auth" } taken =
    .last (.network { protocol := .nbd }) taken := by decide
  obtain rfl := hunique _ (.next rfl hnext (.last rfl hlast))
  refine ⟨_, hcourse, hplace, rfl, rfl, rfl, rfl, ?_⟩
  rw [hmany 3]
  rfl

end Schema

end GuestXml
