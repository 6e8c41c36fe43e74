import GuestXml.Proofs.Reading.Trace
import GuestXml.Schema.Document

/-!
# The discipline of a reading

One reading serves all levels of a tree: one cursor with the elements around it, one count,
and one list of the names asked for. Its readers keep to a discipline that makes it do for
each element what a reading of its own would do. A reading is sound (`Reading.Sound`) if it
is no deeper than the limit and remembers the names by depth, none of them from further in.
From a sound reading a reader passes through sound readings only, ends where it began, and
adds the names to those of its element that it asked for and did not take back
(`Traced.Orderly`).

Each step is orderly and the combinators keep it so, whence all calls are
(`Call.trace_orderly`). So are all readings that calls lead to (`Reading.Reachable.sound`), and
no child is blamed for a name that only a child, a sibling or a failed attempt asked for
(`Reading.calls_keep_place`).
-/

namespace GuestXml.Schema

open Xml (Element)

namespace Reading

/-! ### Sound readings -/

/-- What holds of a reading wherever it has come to. -/
structure Sound (r : Reading) : Prop where
  depth : r.cursor.depth ≤ r.cursor.maxDepth
  /-- Names asked for further in come first. -/
  ordered : r.requested.Pairwise fun p q => q.1 ≤ p.1
  tidy : r.Tidy

/-- A reading at the same element as another, or further in. -/
structure Beneath (s r : Reading) : Prop where
  outer : r.cursor.outer <:+ s.cursor.outer
  maxDepth : s.cursor.maxDepth = r.cursor.maxDepth
  denyUnknown : s.denyUnknown = r.denyUnknown

namespace Beneath

theorem refl (r : Reading) : r.Beneath r :=
  ⟨List.suffix_refl _, rfl, rfl⟩

theorem trans {r s t : Reading} (h : t.Beneath s) (h' : s.Beneath r) : t.Beneath r :=
  ⟨h'.outer.trans h.outer, h.maxDepth.trans h'.maxDepth, h.denyUnknown.trans h'.denyUnknown⟩

theorem inside (r : Reading) (e : Element) : (r.inside e).Beneath r :=
  ⟨List.suffix_cons _ _, rfl, rfl⟩

end Beneath

theorem Within.beneath {r r' : Reading} (h : r.Within r') : r'.Beneath r :=
  ⟨h.outer ▸ List.suffix_refl _, h.maxDepth, h.denyUnknown⟩

namespace Sound

variable {r r' : Reading}

theorem start (root : Element) (maxDepth : Nat) (denyUnknown : Bool) :
    (Reading.start root maxDepth denyUnknown).Sound where
  depth := Nat.le_max_right _ _
  ordered := .nil
  tidy := fun p hp => by cases hp

theorem of_within (hr : r.Sound) (h : r.Within r') : r'.Sound where
  depth := by
    rw [h.depth, h.maxDepth]
    exact hr.depth
  ordered := by
    obtain ⟨new, hnew, hmem⟩ := h.requested
    rw [hnew, List.pairwise_append]
    refine ⟨?_, hr.ordered, ?_⟩
    · refine List.pairwise_of_forall_mem_list fun p hp q hq => ?_
      exact Nat.le_of_eq ((hmem q hq).trans (hmem p hp).symm)
    · intro p hp q hq
      rw [hmem p hp]
      exact hr.tidy q hq
  tidy := h.tidy hr.tidy

theorem inside (hr : r.Sound) (hroom : r.cursor.depth < r.cursor.maxDepth) (e : Element) :
    (r.inside e).Sound where
  depth := hroom
  ordered := hr.ordered
  tidy := fun p hp => Nat.le_succ_of_le (hr.tidy p hp)

/-- Names are found by depth, so that on the way out all names from further in are dropped. -/
theorem leave (hr : r.Sound) : r.leave.Sound where
  depth := by
    have hdepth := hr.depth
    unfold Reading.leave Cursor.leave
    rcases houter : r.cursor.outer with _ | ⟨f, outer⟩
    · exact hdepth
    · simp only [Cursor.depth, houter, List.length_cons] at hdepth ⊢
      omega
  ordered := hr.ordered.sublist (List.dropWhile_sublist _)
  tidy := by
    intro p hp
    have hordered := hr.ordered.sublist (List.dropWhile_sublist (r.cursor.leave.depth < ·.1))
    have hhead := List.head?_dropWhile_not (r.cursor.leave.depth < ·.1) r.requested
    show p.1 ≤ r.cursor.leave.depth
    change p ∈ r.requested.dropWhile (r.cursor.leave.depth < ·.1) at hp
    generalize r.requested.dropWhile (r.cursor.leave.depth < ·.1) = rest at hordered hhead hp
    cases rest with
    | nil => cases hp
    | cons q rest =>
      have hq : q.1 ≤ r.cursor.leave.depth := by simpa using hhead
      rcases List.mem_cons.mp hp with rfl | hp
      · exact hq
      · exact Nat.le_trans (List.rel_of_pairwise_cons hordered hp) hq

theorem consume (hr : r.Sound) : r.consume.Sound :=
  ⟨hr.depth, hr.ordered, hr.tidy⟩

end Sound

/-! ### Asking and stepping inside -/

theorem within_request (r : Reading) (name : String) : r.Within (r.request name) := by
  unfold request
  dsimp only
  split
  · exact .refl r
  · exact ⟨rfl, rfl, rfl, rfl, [(r.cursor.depth, name)], rfl, by simp⟩

/-- A name that was asked for just before is not noted again. -/
theorem mem_request {r : Reading} {name : String} {p : Nat × String} :
    p ∈ (r.request name).requested ↔ p ∈ r.requested ∨ p = (r.cursor.depth, name) := by
  unfold request
  dsimp only
  split
  · rename_i hhead
    have hmem := List.mem_of_mem_head? hhead
    constructor
    · exact .inl
    · rintro (hp | rfl)
      · exact hp
      · exact hmem
  · rw [List.mem_cons]
    exact or_comm

end Reading

/-- Reading inside a child leaves no name behind. -/
theorem withChild_within {α : Type} {read : ReadM α} {r : Reading} {e : Element} (hr : r.Tidy)
    (h : (r.inside e).Within (read (r.inside e)).2) :
    r.Within (withChild e read r).2 ∧ (withChild e read r).2.requested = r.requested := by
  by_cases hfull : r.cursor.maxDepth ≤ r.cursor.depth
  · rw [withChild_of_full hfull]
    exact ⟨.refl r, rfl⟩
  · have hleave := Reading.leave_eq hr h
    rcases hread : read (r.inside e) with ⟨err | a, r'⟩
    · rw [withChild_of_error hfull hread]
      rw [hread] at hleave
      rw [hleave]
      exact ⟨⟨rfl, rfl, rfl, rfl, [], rfl, by simp⟩, rfl⟩
    · rw [withChild_of_ok hfull hread]
      rw [hread] at hleave
      rw [hleave]
      exact ⟨⟨rfl, Frame.element_advance _, rfl, rfl, [], rfl, by simp⟩, rfl⟩

/-! ### Orderly readers -/

namespace Traced

variable {α β γ : Type}

/-- What a reader keeps to from a reading on. -/
structure Keeps (x : Traced α) (r : Reading) : Prop where
  within : r.Within (x.read r).2
  passed : ∀ s ∈ x.passed r, s.Sound ∧ s.Beneath r
  last : (x.read r).2 ∈ x.passed r
  /-- The names of the element are those it had and those that were asked for. -/
  asked : ∀ name, (r.cursor.depth, name) ∈ (x.read r).2.requested ↔
    (r.cursor.depth, name) ∈ r.requested ∨ name ∈ x.asked r

/-- A reader that keeps to the discipline from every sound reading on. -/
def Orderly (x : Traced α) : Prop :=
  ∀ r, r.Sound → x.Keeps r

namespace Orderly

theorem look (read : ReadM α) : Orderly (look read) := by
  intro r hr
  refine ⟨.refl r, ?_, List.mem_singleton_self r, fun name => (by simp [Traced.look])⟩
  intro s hs
  rw [List.mem_singleton.mp hs]
  exact ⟨hr, .refl r⟩

theorem ask (name : String) (find : Reading → α) : Orderly (ask name find) := by
  intro r hr
  have hwithin := r.within_request name
  refine ⟨hwithin, ?_, by simp [Traced.ask], fun other => ?_⟩
  · intro s hs
    rcases List.mem_pair.mp hs with rfl | rfl
    · exact ⟨hr, .refl s⟩
    · exact ⟨hr.of_within hwithin, hwithin.beneath⟩
  · show _ ∈ (r.request name).requested ↔ _ ∨ other ∈ [name]
    rw [Reading.mem_request, Prod.mk.injEq, List.mem_singleton]
    simp

theorem andThen {x : Traced α} {next : Except Error α → Traced β} (h : Orderly x)
    (h' : ∀ result, Orderly (next result)) : Orderly (x.andThen next) := by
  intro r hr
  have hx := h r hr
  have hnext := h' (x.read r).1 _ (hr.of_within hx.within)
  refine ⟨hx.within.trans hnext.within, ?_, List.mem_append_right _ hnext.last, fun name => ?_⟩
  · intro s hs
    rcases List.mem_append.mp hs with hs | hs
    · exact hx.passed s hs
    · obtain ⟨hsound, hbeneath⟩ := hnext.passed s hs
      exact ⟨hsound, hbeneath.trans hx.within.beneath⟩
  · have hasked := hnext.asked name
    rw [hx.within.depth, hx.asked name] at hasked
    show _ ∈ ((next (x.read r).1).read (x.read r).2).2.requested ↔ _ ∨ name ∈ _ ++ _
    rw [hasked, List.mem_append, or_assoc]

theorem depending {x : Reading → Traced α} (h : ∀ r, Orderly (x r)) : Orderly (depending x) :=
  fun r hr => ⟨(h r r hr).within, (h r r hr).passed, (h r r hr).last, (h r r hr).asked⟩

theorem inside (e : Element) {x : Traced α} (h : Orderly x) : Orderly (inside e x) := by
  intro r hr
  by_cases hfull : r.cursor.maxDepth ≤ r.cursor.depth
  · have hrun : (Traced.inside e x).read r = _ := withChild_of_full hfull
    refine ⟨hrun ▸ .refl r, ?_, ?_, fun name => ?_⟩
    · intro s hs
      simp only [Traced.inside, if_pos hfull, List.mem_singleton] at hs
      rw [hs]
      exact ⟨hr, .refl r⟩
    · simp [Traced.inside, hfull, withChild_of_full hfull]
    · simp [Traced.inside, withChild_of_full hfull]
  · have hx := h (r.inside e) (hr.inside (Nat.lt_of_not_le hfull) e)
    obtain ⟨hwithin, hrequested⟩ := withChild_within hr.tidy hx.within
    refine ⟨hwithin, ?_, by simp [Traced.inside, hfull], fun name => ?_⟩
    · intro s hs
      simp only [Traced.inside, if_neg hfull, List.mem_cons, List.mem_append,
        List.not_mem_nil, or_false] at hs
      rcases hs with rfl | hs | rfl | rfl
      · exact ⟨hr, .refl s⟩
      · obtain ⟨hsound, hbeneath⟩ := hx.passed s hs
        exact ⟨hsound, hbeneath.trans (.inside r e)⟩
      · refine ⟨(hx.passed _ hx.last).1.leave, ?_⟩
        rw [Reading.leave_eq hr.tidy hx.within]
        exact ⟨List.suffix_refl _, rfl, rfl⟩
      · exact ⟨hr.of_within hwithin, hwithin.beneath⟩
    · show _ ∈ (withChild e x.read r).2.requested ↔ _ ∨ name ∈ []
      simp [hrequested]

/-- An attempt keeps what its reader keeps, if it ends where it should. -/
theorem keeps_attempt {x : Traced α} {r r' : Reading} (hx : x.Keeps r)
    (hend : (Schema.attempt x.read r).2 = r') (hwithin : r.Within r') (hsound : r'.Sound)
    (hasked : ∀ name, (r.cursor.depth, name) ∈ r'.requested ↔
      (r.cursor.depth, name) ∈ r.requested ∨ name ∈ x.attempt.asked r) :
    x.attempt.Keeps r := by
  subst hend
  refine ⟨hwithin, fun s hs => ?_, List.mem_append_right _ (List.mem_singleton_self _), hasked⟩
  rcases List.mem_append.mp hs with hs | hs
  · exact hx.passed s hs
  · rw [List.mem_singleton.mp hs]
    exact ⟨hsound, hwithin.beneath⟩

/-- A failed attempt goes back to where it began. -/
theorem attempt {x : Traced α} (h : Orderly x) : Orderly (attempt x) := by
  intro r hr
  have hx := h r hr
  rcases hread : x.read r with ⟨e | a, r'⟩
  case error =>
    have hback := Reading.rewind_mark hx.within
    rw [hread] at hback
    have hend : (Schema.attempt x.read r).2 = r := by
      simp only [Schema.attempt, hread]
      exact hback
    refine keeps_attempt hx hend (.refl r) hr fun name => ?_
    simp [Traced.attempt, hread]
  case ok =>
    have hend : (Schema.attempt x.read r).2 = (x.read r).2 := by
      simp only [Schema.attempt, hread]
    refine keeps_attempt hx hend hx.within (hr.of_within hx.within) fun name => ?_
    rw [hx.asked name]
    simp [Traced.attempt, hread]

theorem pure (a : α) : Orderly (pure a) :=
  look _

theorem bind {x : Traced α} {f : α → Traced β} (h : Orderly x) (h' : ∀ a, Orderly (f a)) :
    Orderly (x >>= f) := by
  refine h.andThen fun result => ?_
  cases result with
  | ok a => exact h' a
  | error e => exact look _

theorem map {x : Traced α} (f : α → β) (h : Orderly x) : Orderly (f <$> x) :=
  h.bind fun a => .pure (f a)

theorem each {x : γ → Traced α} (h : ∀ c, Orderly (x c)) (cs : List γ) : Orderly (each x cs) := by
  induction cs with
  | nil => exact .pure []
  | cons c cs ih => exact (h c).bind fun a => ih.bind fun as => .pure (a :: as)

/-! ### Members and alternatives -/

theorem next? (name : String) : Orderly (next? name) :=
  ask name _

theorem require (name : String) : Orderly (require name) := by
  refine (next? name).bind fun child? => ?_
  cases child? with
  | none => exact look _
  | some e => exact .pure e

theorem required (name : String) {x : Traced α} (h : Orderly x) : Orderly (required name x) :=
  (require name).bind fun e => h.inside e

theorem optional (name : String) (f : α → β) (b : β) {x : Traced α} (h : Orderly x) :
    Orderly (optional name f b x) := by
  refine (next? name).bind fun child? => ?_
  cases child? with
  | none => exact .pure b
  | some e => exact (h.inside e).map f

theorem many (name : String) (min : Nat) {x : Traced α} (h : Orderly x) :
    Orderly (many name min x) :=
  Orderly.bind (ask name _) fun es =>
    (Orderly.each (fun e => h.inside e) es).bind fun values =>
      (look _).bind fun _ => .pure values

theorem value (s : Scalar) : Orderly (value s) :=
  (look _).bind fun _ => (look _).bind fun v => (look _).bind fun _ => .pure v

section Members

variable {child : (t : Content) → Traced t.Carrier} (h : ∀ t, Orderly (child t))

include h

theorem field (f : Field) : Orderly (field child f) := by
  cases f with
  | valueElement name s => exact .required name (.value s)
  | optionalValueElement name s => exact .optional name some none (.value s)
  | valueElements name min s => exact .many name min (.value s)
  | flag name => exact .optional name (fun _ => true) false (.look _)
  | element name t => exact .required name (h t)
  | optionalElement name t => exact .optional name some none (h t)
  | elements name min t => exact .many name min (h t)
  | attr | optionalAttr | constant | text | optionalText | noContent => exact look _

theorem tuple (ms : List Member) : Orderly (tuple child ms) := by
  induction ms with
  | nil => exact .pure ()
  | cons m ms ih => exact (field h m.field).bind fun v => ih.bind fun vs => .pure (v, vs)

theorem group (g : Group) : Orderly (group child g) :=
  (tuple h g.record.members).bind fun vs => .pure (g.record.ofTuple vs)

theorem alternative (a : Alternative) : Orderly (alternative child a) := by
  cases a with
  | group name g => exact (group h g).attempt
  | element name tag t => exact (Orderly.required tag (h t)).attempt

theorem first (choice : String) (as : List Alternative) : Orderly (first child choice as) := by
  induction as with
  | nil => exact look _
  | cons a as ih =>
    refine (alternative h a).andThen fun result => ?_
    cases result with
    | ok v => exact .pure _
    | error e =>
      by_cases hfatal : e.isFatal = true
      · simp only [if_pos hfatal]
        exact look _
      · simp only [if_neg hfatal]
        exact ih.map Sum.inr

theorem choice (c : Choice) : Orderly (choice child c) :=
  (first h c.name c.variants.alternatives).bind fun v => .pure (c.variants.ofAny v)

omit h in
theorem whileTaken {x : Traced α} (hx : Orderly x) (most : Nat) : Orderly (whileTaken x most) := by
  induction most with
  | zero => exact .pure []
  | succ n ih =>
    refine depending fun r => ?_
    by_cases hempty : r.cursor.remaining.isEmpty = true
    · simp only [if_pos hempty]
      exact .pure []
    · simp only [if_neg hempty]
      refine hx.andThen fun result => ?_
      cases result with
      | ok v =>
        refine depending fun r' => ?_
        by_cases hstay : r'.consumed = r.consumed
        · simp only [if_pos hstay]
          exact .pure [v]
        · simp only [if_neg hstay]
          exact ih.map (v :: ·)
      | error e =>
        by_cases hfatal : e.isFatal = true
        · simp only [if_pos hfatal]
          exact look _
        · simp only [if_neg hfatal]
          exact .pure []

theorem choices (c : Choice) (min : Nat) : Orderly (choices child c min) := by
  refine (look _).bind fun remaining => ?_
  have hmin (values : List c.Carrier) :=
    (look (checkMin c.name min values.length)).bind fun _ => Orderly.pure values
  cases c.tags? with
  | some tags => exact (Orderly.each (fun _ => choice h c) _).bind hmin
  | none => exact ((choice h c).whileTaken _).bind hmin

theorem content (t : Content) : Orderly (content child t) := by
  cases t with
  | group g => exact group h g
  | choice c => exact choice h c
  | series s =>
    exact (tuple h s.record.members).bind fun values =>
      (choices h s.record.choice s.record.min).bind fun entries =>
        .pure (s.record.ofParts (values, entries))

end Members

/-- By induction on the levels. -/
theorem levels (n : Nat) (t : Content) : Orderly (levels n t) := by
  induction n generalizing t with
  | zero => exact look _
  | succ n ih => exact (content ih t).bind fun v => (look _).bind fun _ => .pure v

end Orderly

end Traced

/-- Every call keeps to the discipline. -/
theorem Call.trace_orderly (call : Call) : call.trace.Orderly := by
  refine .depending fun r => ?_
  have hchild := Traced.Orderly.levels r.levelsBelow
  cases call with
  | member f => exact .field hchild f
  | choice c => exact .choice hchild c
  | choices c min => exact .choices hchild c min
  | tryMembers t => exact (Traced.Orderly.content hchild t).attempt
  | tryElement t tag => exact (Traced.Orderly.required tag (hchild t)).attempt
  | parse t =>
    exact (Traced.Orderly.look _).bind fun _ => (Traced.Orderly.levels _ t).bind fun _ =>
      (Traced.Orderly.look _).bind fun _ => .pure _

/-! ### Readings that calls lead to -/

namespace Reading

/-- The readings that come up while a tree is read under some options. Calls pass through
them; between calls a type of the caller's own may step into the next child, and out of it
again, with the child read or not. -/
inductive Reachable (root : Element) (o : LoadOptions) : Reading → Prop where
  | start : Reachable root o (.start root o.maxDepth o.denyUnknown)
  | passed {r s : Reading} (call : Call) (h : Reachable root o r)
    (hs : s ∈ call.trace.passed r) : Reachable root o s
  | entered {r : Reading} {e : Element} (h : Reachable root o r)
    (hnext : r.cursor.peek? = some e) (hroom : r.cursor.depth < r.cursor.maxDepth) :
    Reachable root o ((r.request e.name).inside e)
  | finished {r : Reading} (h : Reachable root o r) (hinside : r.cursor.outer ≠ []) :
    Reachable root o r.leave.consume
  | abandoned {r : Reading} (h : Reachable root o r) (hinside : r.cursor.outer ≠ []) :
    Reachable root o r.leave

/-- The readings at an element of which nothing has been read. -/
inductive Entered (root : Element) (o : LoadOptions) : Reading → Prop where
  | root : Entered root o (.start root o.maxDepth o.denyUnknown)
  | child {r : Reading} {e : Element} (h : r.Reachable root o)
    (hnext : r.cursor.peek? = some e) (hroom : r.cursor.depth < r.cursor.maxDepth) :
    Entered root o ((r.request e.name).inside e)

theorem maxDepth_leave (r : Reading) : r.leave.cursor.maxDepth = r.cursor.maxDepth := by
  unfold leave Cursor.leave
  split <;> rfl

/-- By induction on how the reading is reached. -/
theorem Reachable.sound {root : Element} {o : LoadOptions} {r : Reading}
    (h : r.Reachable root o) : r.Sound ∧ r.cursor.maxDepth = max o.maxDepth 1 ∧
      r.denyUnknown = o.denyUnknown := by
  induction h with
  | start => exact ⟨.start _ _ _, rfl, rfl⟩
  | passed call h hs ih =>
    obtain ⟨hr, hmax, hdeny⟩ := ih
    obtain ⟨hsound, hbeneath⟩ := (call.trace_orderly _ hr).passed _ hs
    exact ⟨hsound, hbeneath.maxDepth.trans hmax, hbeneath.denyUnknown.trans hdeny⟩
  | @entered r e h hnext hroom ih =>
    obtain ⟨hr, hmax, hdeny⟩ := ih
    have hask := r.within_request e.name
    refine ⟨(hr.of_within hask).inside ?_ e, hask.maxDepth.trans hmax,
      hask.denyUnknown.trans hdeny⟩
    rw [hask.depth, hask.maxDepth]
    exact hroom
  | finished h hinside ih =>
    exact ⟨ih.1.leave.consume, (maxDepth_leave _).trans ih.2.1, ih.2.2⟩
  | abandoned h hinside ih =>
    exact ⟨ih.1.leave, (maxDepth_leave _).trans ih.2.1, ih.2.2⟩

/-- No name has been asked for yet where nothing has been read. -/
theorem Entered.sound {root : Element} {o : LoadOptions} {r : Reading} (h : r.Entered root o) :
    r.Sound ∧ ∀ name, (r.cursor.depth, name) ∉ r.requested := by
  cases h with
  | root => exact ⟨.start _ _ _, fun name hname => by cases hname⟩
  | @child r e h hnext hroom =>
    refine ⟨(h.entered hnext hroom).sound.1, fun name hname => ?_⟩
    have hle := ((h.sound.1.of_within (r.within_request e.name))).tidy _ hname
    exact Nat.not_succ_le_self _ hle

/-- Among names kept by depth, those at the greatest depth are the latest. -/
theorem any_takeWhile_depth {names : List (Nat × String)} {depth : Nat} {name : String}
    (hordered : names.Pairwise fun p q => q.1 ≤ p.1) (hdepth : ∀ p ∈ names, p.1 ≤ depth) :
    (names.takeWhile (·.1 == depth)).any (·.2 == name) = true ↔ (depth, name) ∈ names := by
  induction names with
  | nil => simp
  | cons p ps ih =>
    have hps := ih hordered.of_cons fun q hq => hdepth q (List.mem_cons_of_mem _ hq)
    obtain ⟨place, other⟩ := p
    by_cases hhere : place = depth
    · rw [List.takeWhile_cons_of_pos (by simp [hhere]), List.any_cons, Bool.or_eq_true, hps,
        List.mem_cons, Prod.mk.injEq, beq_iff_eq]
      simp [hhere, eq_comm]
    · have hle := hdepth _ List.mem_cons_self
      rw [List.takeWhile_cons_of_neg (by simp [hhere])]
      constructor
      · intro hnone
        cases hnone
      · intro hmem
        rcases List.mem_cons.mp hmem with heq | hmem
        · exact absurd (congrArg Prod.fst heq).symm hhere
        · have hback : depth ≤ place := List.rel_of_pairwise_cons hordered hmem
          exact absurd (Nat.le_antisymm hle hback) hhere

theorem Sound.wasRequested_iff {r : Reading} (hr : r.Sound) {name : String} :
    r.wasRequested name = true ↔ (r.cursor.depth, name) ∈ r.requested :=
  any_takeWhile_depth hr.ordered hr.tidy

/-- A child is out of order for a name that was asked for in its parent. -/
theorem Sound.requested_of_outOfOrder {r : Reading} (hr : r.Sound) {parent child : String}
    (h : (finishElement r).1 = .error (.outOfOrder parent child)) :
    parent = r.current.name ∧ (r.cursor.depth, child) ∈ r.requested := by
  unfold finishElement at h
  cases hleft : r.leftover? with
  | none =>
    rw [hleft] at h
    cases h
  | some e =>
    rw [hleft] at h
    obtain rfl := Except.error.inj h
    obtain ⟨c, -, hc⟩ := List.exists_of_findSome?_eq_some hleft
    unfold fault? at hc
    split at hc
    · rename_i hrequested
      obtain ⟨rfl, rfl⟩ := Error.outOfOrder.inj (Option.some.inj hc)
      exact ⟨rfl, hr.wasRequested_iff.mp hrequested⟩
    · split at hc <;> cases hc

end Reading

/-! ### Calls one after the other -/

namespace Call

/-- Makes calls one after the other, whether they succeed or fail. -/
def runAll : List Call → Reading → Reading
  | [], r => r
  | call :: calls, r => runAll calls (call.read r).2

/-- The names that calls ask for. -/
def askedAll : List Call → Reading → List String
  | [], _ => []
  | call :: calls, r => call.trace.asked r ++ askedAll calls (call.read r).2

/-- By induction on the calls. -/
theorem runAll_keeps (calls : List Call) {r : Reading} (hr : r.Sound) :
    r.Within (runAll calls r) ∧
      ∀ name, (r.cursor.depth, name) ∈ (runAll calls r).requested ↔
        (r.cursor.depth, name) ∈ r.requested ∨ name ∈ askedAll calls r := by
  induction calls generalizing r with
  | nil => exact ⟨.refl r, fun name => by simp [runAll, askedAll]⟩
  | cons call calls ih =>
    have hcall := call.trace_orderly r hr
    have hwithin := hcall.within
    have hasked := hcall.asked
    rw [call.read_trace] at hwithin hasked
    obtain ⟨hwithin', hasked'⟩ := ih (hr.of_within hwithin)
    refine ⟨hwithin.trans hwithin', fun name => ?_⟩
    have hmore := hasked' name
    rw [hwithin.depth, hasked name] at hmore
    show _ ∈ (runAll calls (call.read r).2).requested ↔ _ ∨ name ∈ _ ++ _
    rw [hmore, List.mem_append, or_assoc]

end Call

/-! ### Keeping the place -/

/-- What a call leaves of a reading, under a limit on depth. -/
structure Call.KeepsPlace (call : Call) (limit : Nat) (r r' : Reading) : Prop where
  current : r'.current = r.current
  depth : r'.cursor.depth = r.cursor.depth
  outer : r'.cursor.outer = r.cursor.outer
  /-- On the way, which ends here, no reading is deeper than the limit. -/
  limited : r' ∈ call.trace.passed r ∧ ∀ s ∈ call.trace.passed r, s.cursor.depth ≤ limit
  /-- The latest name first, names are kept by depth. -/
  ordered : r'.requested.Pairwise fun p q => q.1 ≤ p.1
  tidy : ∀ p ∈ r'.requested, p.1 ≤ r'.cursor.depth
  /-- The names kept for the element are those that its members ask for in attempts that
  were not undone. -/
  asked : ∀ name, (r'.cursor.depth, name) ∈ r'.requested ↔
    (r.cursor.depth, name) ∈ r.requested ∨ name ∈ call.trace.asked r

/-- **Calls keep their place.** Whether it succeeds or fails, a call ends at the element where
it began, was never deeper than the limit, and has added the names that were asked for and
not taken back. At an element read by any number of calls, the names kept are the ones that
the calls asked for there, and no child is out of order for another name. -/
theorem Reading.calls_keep_place (root : Element) (o : LoadOptions) :
    (∀ r : Reading, r.Reachable root o → ∀ call : Call,
      call.trace.read = call.read ∧
        call.KeepsPlace (max o.maxDepth 1) r (call.read r).2) ∧
    ∀ r : Reading, r.Entered root o → ∀ calls : List Call,
      (∀ name, ((Call.runAll calls r).cursor.depth, name) ∈ (Call.runAll calls r).requested ↔
        name ∈ Call.askedAll calls r) ∧
      ∀ parent child, (finishElement (Call.runAll calls r)).1 = .error (.outOfOrder parent child) →
        parent = r.current.name ∧ child ∈ Call.askedAll calls r := by
  refine ⟨fun r h call => ⟨call.read_trace, ?_⟩, fun r h calls => ?_⟩
  · obtain ⟨hr, hmax, -⟩ := h.sound
    have hkeeps := call.trace_orderly r hr
    have hwithin := hkeeps.within
    have hlast := hkeeps.last
    have hasked := hkeeps.asked
    rw [call.read_trace] at hwithin hlast hasked
    have hsound := hr.of_within hwithin
    refine ⟨hwithin.element, hwithin.depth, hwithin.outer, ⟨hlast, fun s hs => ?_⟩,
      hsound.ordered, hsound.tidy, fun name => ?_⟩
    · obtain ⟨hs, hbeneath⟩ := hkeeps.passed s hs
      rw [← hmax, ← hbeneath.maxDepth]
      exact hs.depth
    · rw [hwithin.depth]
      exact hasked name
  · obtain ⟨hr, hnone⟩ := h.sound
    obtain ⟨hwithin, hasked⟩ := Call.runAll_keeps calls hr
    have hnames : ∀ name, ((Call.runAll calls r).cursor.depth, name) ∈
        (Call.runAll calls r).requested ↔ name ∈ Call.askedAll calls r := by
      intro name
      rw [hwithin.depth, hasked name]
      exact or_iff_right (hnone name)
    refine ⟨hnames, fun parent child hfault => ?_⟩
    obtain ⟨hparent, hchild⟩ := (hr.of_within hwithin).requested_of_outOfOrder hfault
    exact ⟨hparent.trans (congrArg Element.name hwithin.element), (hnames child).mp hchild⟩

/-- A rule that matches on a port is left with a child for which an earlier alternative asked.
It is not out of order, since that alternative was rejected. -/
theorem Reading.calls_keep_place_rule :
    let rule : Element := { name := "rule", children := [
      .element { name := "tcp" }, .element { name := "mac" }] }
    let r := Reading.start rule 2 false
    (Call.choice .ruleMatch).KeepsPlace 2 r ((Call.choice .ruleMatch).read r).2 ∧
      Call.askedAll [.choice .ruleMatch] r = ["tcp"] ∧
      (finishElement (Call.runAll [.choice .ruleMatch] r)).1 = .ok () ∧
      ∀ parent child,
        (finishElement (Call.runAll [.choice .ruleMatch] r)).1 = .error (.outOfOrder parent child) →
          parent = "rule" ∧ child ∈ Call.askedAll [.choice .ruleMatch] r := by
  intro rule r
  have hplace := Reading.calls_keep_place rule { maxDepth := 2 }
  exact ⟨(hplace.1 r .start _).2, by decide, by decide, (hplace.2 r .root _).2⟩

end GuestXml.Schema
