import GuestXml.Proofs.Reading.Alternatives
import GuestXml.Proofs.Reading.Strictness

/-!
# Position and count

A reading has a position among the children of its element, and it counts the elements
consumed at any depth. The two go together: a reader that succeeds has moved on by some of the
next children, each of which counts, and so does nothing but these children and what is below
them (`Scan.Advances`, `Reading.Advances`). Whether the position has changed can thus be told
from the count alone (`Reading.Advances.consumed_eq_iff`).

Scans are closed under advancing step by step (`Advancing`); the readers follow them, and so
whatever an alternative or a choice was read from is known by its children:
`Reading.Sound.advances_of_attempt` and `Reading.Sound.advances_of_read`.
-/

namespace GuestXml.Schema

open Xml (Element)

/-! ### Scans -/

/-- A scan has moved on by some children. They are counted, and nothing besides them but
elements below them. -/
structure Scan.Advances (s : Scan) (children : List Element) (s' : Scan) : Prop where
  rest : s.rest = children ++ s'.rest
  atLeast : s.consumed + children.length ≤ s'.consumed
  atMost : s'.consumed ≤ s.consumed + Element.sizes children

namespace Scan.Advances

variable {s s' s'' : Scan} {children children' more : List Element} {e : Element}

theorem refl (s : Scan) : s.Advances [] s :=
  ⟨rfl, Nat.le_refl _, Nat.le_refl _⟩

theorem ask (s : Scan) (name : String) : s.Advances [] (s.ask name) where
  rest := (s.rest_ask name).symm
  atLeast := Nat.le_of_eq (s.consumed_ask name).symm
  atMost := Nat.le_of_eq (s.consumed_ask name)

theorem trans (h : s.Advances children s') (h' : s'.Advances children' s'') :
    s.Advances (children ++ children') s'' where
  rest := by rw [h.rest, h'.rest, List.append_assoc]
  atLeast := by
    have hfirst := h.atLeast
    have hsecond := h'.atLeast
    rw [List.length_append]
    omega
  atMost := by
    have hfirst := h.atMost
    have hsecond := h'.atMost
    rw [Element.sizes_append]
    omega

/-- Behind a child of which some elements were consumed. -/
theorem child (hrest : s.rest = e :: more) {n : Nat} (hn : n ≤ e.descendants) :
    s.Advances [e] { s with rest := s.rest.tail, consumed := s.consumed + n + 1 } where
  rest := by
    rw [hrest]
    rfl
  atLeast := by
    show s.consumed + 1 ≤ s.consumed + n + 1
    omega
  atMost := by
    show s.consumed + n + 1 ≤ s.consumed + (e.descendants + 1 + 0)
    omega

end Scan.Advances

/-- A scan that advances where it succeeds. -/
def Advancing {α : Type} (scan : ScanM α) : Prop :=
  ∀ s a s', scan s = .ok (a, s') → ∃ children, s.Advances children s'

namespace Advancing

variable {α β : Type} {scan : ScanM α}

theorem idle (h : Idle scan) : Advancing scan := by
  intro s a s' hs
  obtain rfl := h.eq_of_ok hs
  exact ⟨[], .refl s'⟩

theorem pure (a : α) : Advancing (pure a) :=
  .idle (.pure a)

theorem bind {next : α → ScanM β} (h : Advancing scan) (h' : ∀ a, Advancing (next a)) :
    Advancing (scan >>= next) := by
  intro s b s'' hs
  obtain ⟨a, s', ha, hb⟩ := ScanM.bind_eq_ok_iff.mp hs
  obtain ⟨children, hchildren⟩ := h s a s' ha
  obtain ⟨children', hchildren'⟩ := h' a s' b s'' hb
  exact ⟨children ++ children', hchildren.trans hchildren'⟩

theorem map (f : α → β) (h : Advancing scan) : Advancing (f <$> scan) := by
  rw [map_eq_pure_bind]
  exact h.bind fun a => .pure (f a)

end Advancing

/-! ### Children -/

section Children

variable {α β : Type} {site : Site} {scan : Element → Except Error (α × Nat)}
  (h : ∀ e v n, scan e = .ok (v, n) → n ≤ e.descendants)

include h

theorem advances_scanChild {s s' : Scan} {e : Element} {more : List Element} {v : α}
    (hrest : s.rest = e :: more) (hs : scanChild site (scan e) s = .ok (v, s')) :
    s.Advances [e] s' := by
  obtain ⟨-, n, hscan, rfl⟩ := scanChild_eq_ok_iff.mp hs
  exact .child hrest (h e v n hscan)

theorem advancing_required (name : String) :
    Advancing (do scanChild site (scan (← scanRequired site name))) := by
  intro s v s' hs
  obtain ⟨e, s₁, hnext, hchild⟩ := ScanM.bind_eq_ok_iff.mp hs
  obtain ⟨rfl, -, more, hrest⟩ := scanRequired_eq_ok hnext
  rw [← s.rest_ask name] at hrest
  exact ⟨_, (Scan.Advances.ask s name).trans (advances_scanChild h hrest hchild)⟩

theorem advancing_optional (name : String) (f : α → β) (b : β) :
    Advancing
      (do match ← scanNext? name with
          | some e => f <$> scanChild site (scan e)
          | none => return b) := by
  intro s w s' hs
  obtain ⟨e?, s₁, hnext, hs'⟩ := ScanM.bind_eq_ok_iff.mp hs
  cases e? with
  | none =>
    obtain ⟨-, rfl⟩ := Prod.mk.inj (Except.ok.inj hnext)
    cases hs'
    exact ⟨[], .ask s name⟩
  | some e =>
    obtain ⟨rfl, -, more, hrest⟩ := scanNext?_eq_some hnext
    obtain ⟨v, hchild, -⟩ := ScanM.map_eq_ok_iff.mp hs'
    rw [← s.rest_ask name] at hrest
    exact ⟨_, (Scan.Advances.ask s name).trans (advances_scanChild h hrest hchild)⟩

/-- By induction on the children. -/
theorem advances_mapM {es more : List Element} {s s' : Scan} {vs : List α}
    (hrest : s.rest = es ++ more)
    (hs : (es.mapM fun e => scanChild site (scan e)) s = .ok (vs, s')) : s.Advances es s' := by
  induction es generalizing s vs with
  | nil =>
    rw [List.mapM_nil] at hs
    cases hs
    exact .refl s'
  | cons e es ih =>
    rw [List.mapM_cons] at hs
    obtain ⟨v, s₁, hchild, hs₁⟩ := ScanM.bind_eq_ok_iff.mp hs
    obtain ⟨ws, s₂, hmore, hs₂⟩ := ScanM.bind_eq_ok_iff.mp hs₁
    cases hs₂
    have hfirst := advances_scanChild h hrest hchild
    have hrest₁ : s₁.rest = es ++ more :=
      (List.cons_inj_right e).mp (hfirst.rest.symm.trans hrest)
    exact hfirst.trans (ih hrest₁ hmore)

theorem advancing_many (name : String) (min : Nat) :
    Advancing
      (do let values ← (← scanAll name).mapM fun e => scanChild site (scan e)
          scanMin site name min values.length
          return values) := by
  intro s vs s' hs
  obtain ⟨es, s₁, hall, hs₁⟩ := ScanM.bind_eq_ok_iff.mp hs
  obtain ⟨ws, s₂, hchildren, hs₂⟩ := ScanM.bind_eq_ok_iff.mp hs₁
  obtain ⟨u, s₃, hmin, hs₃⟩ := ScanM.bind_eq_ok_iff.mp hs₂
  cases hs₃
  obtain ⟨-, rfl⟩ := scanMin_eq_ok_iff.mp hmin
  obtain ⟨rfl, -, more, hrest⟩ := scanAll_eq_ok hall
  rw [← s.rest_ask name] at hrest
  exact ⟨_, (Scan.Advances.ask s name).trans (advances_mapM h hrest hchildren)⟩

end Children

/-! ### Members and alternatives -/

theorem le_descendants_of_scanValue (site : Site) (s : Scalar) (e : Element) (v : s.Carrier)
    (n : Nat) (h : scanValue site s e = .ok (v, n)) : n ≤ e.descendants := by
  rw [(scanValue_eq_ok h).2]
  exact Nat.zero_le _

theorem le_descendants_of_scanFlag (site : Site) (e : Element) (v : Unit) (n : Nat)
    (h : scanFlag site e = .ok (v, n)) : n ≤ e.descendants := by
  obtain ⟨s, hs, -, rfl⟩ := scanElement_eq_ok_iff.mp h
  cases hs
  exact Nat.zero_le _

section Members

variable {site : Site} {child : (t : Content) → Element → Except Error (t.Carrier × Nat)}
  (h : ∀ t e v n, child t e = .ok (v, n) → n ≤ e.descendants)

include h

theorem advancing_scanField (f : Field) : Advancing (scanField site child f) := by
  by_cases hf : f.childName? = none
  · exact .idle (scanField_idle hf)
  · have hvalue := le_descendants_of_scanValue site
    have hflag := le_descendants_of_scanFlag site
    cases f with
    | valueElement name s => exact advancing_required (hvalue s) name
    | optionalValueElement name s => exact advancing_optional (hvalue s) name some none
    | valueElements name min s => exact advancing_many (hvalue s) name min
    | flag name => exact advancing_optional hflag name (fun _ => true) false
    | element name t => exact advancing_required (h t) name
    | optionalElement name t => exact advancing_optional (h t) name some none
    | elements name min t => exact advancing_many (h t) name min
    | _ => exact absurd rfl hf

theorem advancing_scanTuple (ms : List Member) : Advancing (scanTuple site child ms) := by
  induction ms with
  | nil => exact .pure ()
  | cons m ms ih =>
    exact (advancing_scanField h m.field).bind fun v => ih.bind fun vs => .pure (v, vs)

theorem advancing_scanAlternative (a : Alternative) :
    Advancing (scanAlternative site child a) := by
  cases a with
  | group name g =>
    exact (advancing_scanTuple h g.record.members).bind fun vs => .pure (g.record.ofTuple vs)
  | element name tag t => exact advancing_required (h t) tag

theorem advancing_scanFirst (choice : String) (as : List Alternative) :
    Advancing (scanFirst site child choice as) := by
  induction as with
  | nil => exact .idle (.fail rfl)
  | cons a as ih =>
    intro s v s' hs
    rcases scanFirst_eq_ok hs with ⟨w, hw, -⟩ | ⟨w, hw, -⟩
    · exact advancing_scanAlternative h a s w s' hw
    · exact ih s w s' hw

theorem advancing_scanChoice (c : Choice) : Advancing (scanChoice site child c) :=
  (advancing_scanFirst h c.name c.variants.alternatives).bind fun v =>
    .pure (c.variants.ofAny v)

end Members

/-- An element counts no more elements than are below it. -/
theorem le_descendants_of_scanLevels {denyUnknown : Bool} {limit levels : Nat} (t : Content)
    (e : Element) (v : t.Carrier) (n : Nat)
    (h : scanLevels denyUnknown limit levels t e = .ok (v, n)) : n ≤ e.descendants := by
  rcases scanLevels_inStepAt limit levels t e with ⟨heq, hall⟩ | ⟨⟨err, herr, -⟩, hfewer⟩
  · refine Nat.le_of_eq ?_
    cases denyUnknown with
    | true => exact hall v n h
    | false => exact hall v n (heq.trans h)
  · cases denyUnknown with
    | true => exact nomatch herr.symm.trans h
    | false => exact Nat.le_of_lt (hfewer v n h)

/-! ### Readings -/

/-- A reading has moved on by some children of its element. They are counted, and nothing
besides them but elements below them. -/
structure Reading.Advances (r : Reading) (children : List Element) (r' : Reading) : Prop where
  within : r.Within r'
  remaining : r.cursor.remaining = children ++ r'.cursor.remaining
  atLeast : r.consumed + children.length ≤ r'.consumed
  atMost : r'.consumed ≤ r.consumed + Element.sizes children

namespace Reading

/-- **The count tells whether the position has changed.** -/
theorem Advances.consumed_eq_iff {r r' : Reading} {children : List Element}
    (h : r.Advances children r') : r'.consumed = r.consumed ↔ children = [] := by
  have hleast := h.atLeast
  have hmost := h.atMost
  constructor
  · intro heq
    refine List.eq_nil_of_length_eq_zero ?_
    omega
  · rintro rfl
    exact Nat.le_antisymm hmost hleast

theorem Advances.length_lt {r r' : Reading} {children : List Element}
    (h : r.Advances children r') (hchildren : children ≠ []) :
    r'.cursor.remaining.length < r.cursor.remaining.length := by
  have hpos : 0 < children.length := List.length_pos_iff.mpr hchildren
  rw [h.remaining, List.length_append]
  omega

end Reading

/-- What follows an advancing scan advances. -/
theorem Follows.advances {α : Type} {site : Site} {read : ReadM α} {scan : ScanM α}
    (h : Follows site read scan) (hscan : Advancing scan) {r r' : Reading} {base : Nat}
    {s : Scan} (hs : r.Shows site base s) {a : α} (ha : read r = (.ok a, r')) :
    ∃ children, r.Advances children r' := by
  obtain ⟨s', hs', hwithin, hshows⟩ := h.of_ok hs ha
  obtain ⟨children, hchildren⟩ := hscan s a s' hs'
  refine ⟨children, hwithin, ?_, ?_, ?_⟩
  · rw [hs.rest, hshows.rest]
    exact hchildren.rest
  · have hleast := hchildren.atLeast
    rw [hs.consumed, hshows.consumed]
    omega
  · have hmost := hchildren.atMost
    rw [hs.consumed, hshows.consumed]
    omega

namespace Reading.Sound

variable {r r' : Reading} (hr : r.Sound)

include hr

theorem advances_of_attempt {a : Alternative} {v : a.Carrier} (h : a.attempt r = (.ok v, r')) :
    ∃ children, r.Advances children r' := by
  rw [a.attempt_eq] at h
  exact (readAlternative_follows (readLevels_child r.site) a).follows.advances
    (advancing_scanAlternative le_descendants_of_scanLevels a) hr.shows h

theorem advances_of_read {c : Choice} {v : c.Carrier} (h : c.read r = (.ok v, r')) :
    ∃ children, r.Advances children r' :=
  (readChoice_follows (readLevels_child r.site) c).follows.advances
    (advancing_scanChoice le_descendants_of_scanLevels c) hr.shows h

end Reading.Sound

end GuestXml.Schema
