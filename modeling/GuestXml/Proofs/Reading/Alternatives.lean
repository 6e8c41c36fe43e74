import GuestXml.Proofs.Reading.Alone
import GuestXml.Proofs.Reading.Fatal

/-!
# The alternatives of a choice

A choice is read by trying its alternatives in order. Each of them can be tried alone
(`Alternative.attempt`), and what the choice comes to is known from what they come to so:

* the first alternative that is read is taken, with its value and with the reading it leads
  to, if those before it failed and none of them fatally;
* a fatal error ends the search, if nothing was read before;
* otherwise the choice is exhausted.

A failed attempt leaves nothing behind (`Reading.Sound.attempt_error`), so it makes no
difference to the next one that it was made.
-/

namespace GuestXml.Schema

open Xml (Element)

/-- The value of the alternative at a place. -/
def AnyOf.ofIndex : {as : List Alternative} → (i : Fin as.length) → (as.get i).Carrier → AnyOf as
  | _ :: _, ⟨0, _⟩, v => .inl v
  | _ :: _, ⟨i + 1, h⟩, v => .inr (ofIndex ⟨i, Nat.lt_of_succ_lt_succ h⟩ v)

/-- Tries an alternative in the current element, and no other. -/
def Alternative.attempt : (a : Alternative) → ReadM a.Carrier
  | .group _ g => (Content.group g).tryMembers
  | .element _ tag t => t.tryElement tag

theorem Alternative.attempt_eq (a : Alternative) (r : Reading) :
    a.attempt r = readAlternative (readLevels r.levelsBelow) a r := by
  cases a <;> rfl

/-- A failed attempt leaves no trace, and its error is fatal only for the limit. -/
theorem Reading.Sound.attempt_error {r r' : Reading} (hr : r.Sound) {a : Alternative}
    {err : Error} (h : a.attempt r = (.error err, r')) :
    r' = r ∧ FitsLimit r.cursor.maxDepth err := by
  rw [a.attempt_eq] at h
  obtain ⟨hscan, hsame⟩ :=
    (readAlternative_follows (readLevels_child r.site) a).of_error hr.shows h
  have hchild := scanLevels_failsUnder r.site.denyUnknown r.site.limit r.site.below
  exact ⟨hsame, failsUnder_scanAlternative hchild a r.scan err hscan⟩

/-! ### The first of some alternatives -/

section First

variable {child : (t : Content) → ReadM t.Carrier} {choice : String} {r r' : Reading}
  {a : Alternative} {as : List Alternative} {err : Error}

theorem readFirst_of_read {v : a.Carrier} (h : readAlternative child a r = (.ok v, r')) :
    readFirst child choice (a :: as) r = (.ok (.inl v), r') := by
  simp only [readFirst, h]

theorem readFirst_of_fatal (h : readAlternative child a r = (.error err, r'))
    (herr : err.isFatal = true) : readFirst child choice (a :: as) r = (.error err, r') := by
  simp only [readFirst, h, herr, if_true]

theorem readFirst_of_rejected (h : readAlternative child a r = (.error err, r'))
    (herr : err.isFatal = false) :
    readFirst child choice (a :: as) r = (Sum.inr <$> readFirst child choice as) r' := by
  simp only [readFirst, h, herr, Bool.false_eq_true, if_false]

/-- What is read of the other alternatives is a value of them all. -/
theorem map_inr_of_eq {result : Except Error (AnyOf as)}
    (h : readFirst child choice as r = (result, r')) :
    (Sum.inr <$> readFirst child choice as) r =
      ((result.map Sum.inr : Except Error (AnyOf (a :: as))), r') := by
  rw [map_eq_pure_bind]
  cases result with
  | ok v => exact Fallible.bind_of_ok h
  | error e => exact Fallible.bind_of_error h

/-- An alternative is rejected: it fails, but not fatally, and leaves the reading as it is. -/
def Rejects (child : (t : Content) → ReadM t.Carrier) (r : Reading) (a : Alternative) : Prop :=
  ∃ err, readAlternative child a r = (.error err, r) ∧ err.isFatal = false

/-- Behind alternatives that are rejected, the first one that is read is taken. -/
theorem readFirst_of_index (i : Fin as.length) {v : (as.get i).Carrier}
    (hbefore : ∀ j < i, Rejects child r (as.get j))
    (h : readAlternative child (as.get i) r = (.ok v, r')) :
    readFirst child choice as r = (.ok (.ofIndex i v), r') := by
  induction as with
  | nil => exact i.elim0
  | cons a as ih =>
    obtain ⟨_ | i, hi⟩ := i
    · exact readFirst_of_read h
    · have hfirst : Rejects child r a := hbefore ⟨0, Nat.zero_lt_succ _⟩ (Nat.zero_lt_succ i)
      obtain ⟨err, herr, hfatal⟩ := hfirst
      rw [readFirst_of_rejected herr hfatal]
      refine map_inr_of_eq (ih ⟨i, Nat.lt_of_succ_lt_succ hi⟩ (fun j hj => ?_) h)
      exact hbefore j.succ (Nat.succ_lt_succ hj)

/-- Behind alternatives that fail, a fatal error is the result, if it is the only one that can
come up. -/
theorem readFirst_of_index_fatal (i : Fin as.length)
    (hbefore : ∀ j < i, ∃ err', readAlternative child (as.get j) r = (.error err', r) ∧
      (err'.isFatal = true → err' = err))
    (h : readAlternative child (as.get i) r = (.error err, r)) (herr : err.isFatal = true) :
    readFirst child choice as r = (.error err, r) := by
  induction as with
  | nil => exact i.elim0
  | cons a as ih =>
    obtain ⟨_ | i, hi⟩ := i
    · exact readFirst_of_fatal h herr
    · have hfirst : ∃ err', readAlternative child a r = (.error err', r) ∧
          (err'.isFatal = true → err' = err) :=
        hbefore ⟨0, Nat.zero_lt_succ _⟩ (Nat.zero_lt_succ i)
      obtain ⟨err', herr', hsame⟩ := hfirst
      by_cases hfatal : err'.isFatal = true
      · obtain rfl := hsame hfatal
        exact readFirst_of_fatal herr' herr
      · rw [readFirst_of_rejected herr' (Bool.eq_false_iff.mpr hfatal)]
        refine map_inr_of_eq (ih ⟨i, Nat.lt_of_succ_lt_succ hi⟩ (fun j hj => ?_) h)
        exact hbefore j.succ (Nat.succ_lt_succ hj)

/-- If all alternatives are rejected, the choice is exhausted. -/
theorem readFirst_of_rejects (h : ∀ i : Fin as.length, Rejects child r (as.get i)) :
    readFirst child choice as r = (.error (.variantExhausted choice r.current.name), r) := by
  induction as with
  | nil => rfl
  | cons a as ih =>
    have hfirst : Rejects child r a := h ⟨0, Nat.zero_lt_succ _⟩
    obtain ⟨err, herr, hfatal⟩ := hfirst
    rw [readFirst_of_rejected herr hfatal]
    exact map_inr_of_eq (ih fun i => h i.succ)

/-- A value that was read is that of the first alternative not rejected, where failed
attempts leave the reading as it is. -/
theorem exists_index_of_readFirst {v : AnyOf as}
    (hundone : ∀ a ∈ as, ∀ err r', readAlternative child a r = (.error err, r') → r' = r)
    (h : readFirst child choice as r = (.ok v, r')) :
    ∃ i w, v = .ofIndex i w ∧ readAlternative child (as.get i) r = (.ok w, r') ∧
      ∀ j < i, Rejects child r (as.get j) := by
  induction as with
  | nil => exact v.elim
  | cons a as ih =>
    rcases hread : readAlternative child a r with ⟨err | w, r₁⟩
    case ok =>
      rw [readFirst_of_read hread] at h
      cases h
      exact ⟨⟨0, Nat.zero_lt_succ _⟩, w, rfl, hread, fun j hj => absurd hj (Nat.not_lt_zero j)⟩
    case error =>
      obtain rfl := hundone a List.mem_cons_self err r₁ hread
      by_cases hfatal : err.isFatal = true
      · rw [readFirst_of_fatal hread hfatal] at h
        cases h
      · have hrejected : err.isFatal = false := Bool.eq_false_iff.mpr hfatal
        rw [readFirst_of_rejected hread hrejected] at h
        rcases hmore : readFirst child choice as r₁ with ⟨err' | w, r₂⟩
        case error =>
          rw [map_inr_of_eq hmore] at h
          cases h
        case ok =>
          rw [map_inr_of_eq hmore] at h
          cases h
          obtain ⟨i, u, rfl, hu, hbefore⟩ :=
            ih (fun b hb => hundone b (List.mem_cons_of_mem a hb)) hmore
          refine ⟨i.succ, u, rfl, hu, fun j hj => ?_⟩
          obtain ⟨_ | j, hj'⟩ := j
          · exact ⟨err, hread, hrejected⟩
          · exact hbefore ⟨j, Nat.lt_of_succ_lt_succ hj'⟩ (Nat.lt_of_succ_lt_succ hj)

/-- If the search fails without a fatal error, all alternatives are rejected, where failed
attempts leave the reading as it is. -/
theorem rejects_of_readFirst
    (hundone : ∀ a ∈ as, ∀ err r', readAlternative child a r = (.error err, r') → r' = r)
    (h : readFirst child choice as r = (.error err, r')) (herr : err.isFatal = false) :
    ∀ a ∈ as, Rejects child r a := by
  induction as with
  | nil => exact fun a ha => nomatch ha
  | cons a as ih =>
    rcases hread : readAlternative child a r with ⟨err₁ | w, r₁⟩
    case ok =>
      rw [readFirst_of_read hread] at h
      cases h
    case error =>
      obtain rfl := hundone a List.mem_cons_self err₁ r₁ hread
      by_cases hfatal : err₁.isFatal = true
      · rw [readFirst_of_fatal hread hfatal] at h
        cases h
        exact absurd (hfatal.symm.trans herr) (by decide)
      · have hrejected : err₁.isFatal = false := Bool.eq_false_iff.mpr hfatal
        rw [readFirst_of_rejected hread hrejected] at h
        rcases hmore : readFirst child choice as r₁ with ⟨err' | w, r₂⟩
        case ok =>
          rw [map_inr_of_eq hmore] at h
          cases h
        case error =>
          rw [map_inr_of_eq hmore] at h
          cases h
          intro b hb
          rcases List.mem_cons.mp hb with rfl | hb
          · exact ⟨err₁, hread, hrejected⟩
          · exact ih (fun b hb => hundone b (List.mem_cons_of_mem a hb)) hmore b hb

end First

/-! ### Choices -/

theorem Choice.read_eq (c : Choice) (r : Reading) :
    c.read r = readChoice (readLevels r.levelsBelow) c r := rfl

theorem readChoice_of_eq {child : (t : Content) → ReadM t.Carrier} {c : Choice} {r r' : Reading}
    {result : Except Error (AnyOf c.variants.alternatives)}
    (h : readFirst child c.name c.variants.alternatives r = (result, r')) :
    readChoice child c r = (result.map c.variants.ofAny, r') := by
  unfold readChoice
  cases result with
  | ok v => exact Fallible.bind_of_ok h
  | error e => exact Fallible.bind_of_error h

section Attempts

variable {r r' : Reading} (hr : r.Sound)

include hr

/-- An attempt that fails does so in its turn, too. -/
theorem Reading.Sound.fails {a : Alternative} {err : Error} (h : (a.attempt r).1 = .error err) :
    readAlternative (readLevels r.levelsBelow) a r = (.error err, r) ∧
      FitsLimit r.cursor.maxDepth err := by
  obtain ⟨hsame, hfits⟩ := hr.attempt_error (Prod.ext h rfl)
  exact ⟨(a.attempt_eq r).symm.trans (Prod.ext h hsame), hfits⟩

/-- An attempt that fails without a fatal error rejects the alternative. -/
theorem Reading.Sound.rejects {a : Alternative}
    (h : ∃ err, (a.attempt r).1 = .error err ∧ err.isFatal = false) :
    Rejects (readLevels r.levelsBelow) r a := by
  obtain ⟨err, herr, hfatal⟩ := h
  exact ⟨err, (hr.fails herr).1, hfatal⟩

variable {c : Choice}

/-- A choice that was read was read as an alternative, and those before it fail alone. -/
theorem Reading.Sound.exists_attempt_of_read {v : c.Carrier} (h : c.read r = (.ok v, r')) :
    ∃ i w, v = c.variants.ofAny (.ofIndex i w) ∧
      (c.variants.alternatives.get i).attempt r = (.ok w, r') ∧
      ∀ j < i, ∃ err, ((c.variants.alternatives.get j).attempt r).1 = .error err ∧
        err.isFatal = false := by
  rw [c.read_eq] at h
  rcases hfirst : readFirst (readLevels r.levelsBelow) c.name c.variants.alternatives r with
    ⟨err | w, r''⟩
  case error =>
    rw [readChoice_of_eq hfirst] at h
    cases h
  case ok =>
    rw [readChoice_of_eq hfirst] at h
    cases h
    have hundone (a : Alternative) (err : Error) (r₁ : Reading)
        (herr : readAlternative (readLevels r.levelsBelow) a r = (.error err, r₁)) : r₁ = r :=
      (hr.attempt_error ((a.attempt_eq r).trans herr)).1
    obtain ⟨i, u, rfl, hu, hbefore⟩ := exists_index_of_readFirst (fun a _ => hundone a) hfirst
    refine ⟨i, u, rfl, (Alternative.attempt_eq _ r).trans hu, fun j hj => ?_⟩
    obtain ⟨err, herr, hfatal⟩ := hbefore j hj
    exact ⟨err, congrArg Prod.fst ((Alternative.attempt_eq _ r).trans herr), hfatal⟩

/-- A fatal error of an attempt is that of the choice, if no attempt before it succeeds: all
fatal errors are of the same limit. -/
theorem Reading.Sound.read_of_fatal (i : Fin c.variants.alternatives.length) {err : Error}
    (herr : ((c.variants.alternatives.get i).attempt r).1 = .error err)
    (hfatal : err.isFatal = true)
    (hbefore : ∀ j < i, ∃ err', ((c.variants.alternatives.get j).attempt r).1 = .error err') :
    c.read r = (.error err, r) := by
  obtain ⟨hi, hfits⟩ := hr.fails herr
  refine readChoice_of_eq (readFirst_of_index_fatal i (fun j hj => ?_) hi hfatal)
  obtain ⟨err', herr'⟩ := hbefore j hj
  obtain ⟨hj, hfits'⟩ := hr.fails herr'
  exact ⟨err', hj, fun hfatal' => (hfits' hfatal').trans (hfits hfatal).symm⟩

end Attempts

/-- **The first match wins, and a failed attempt leaves no trace.** A choice is read as the
first of its alternatives that can be read alone, if those before it fail without a fatal
error: with the value of that alternative, and with the reading that it leads to alone. A
fatal error is the result if no alternative before it can be read, and if all fail without
one, the choice is exhausted. In case of an error the reading is what it was. -/
theorem Reading.Reachable.first_match_wins {root : Xml.Element} {o : LoadOptions} {r : Reading}
    (h : r.Reachable root o) (c : Choice) :
    let attempt (i : Fin c.variants.alternatives.length) := (c.variants.alternatives.get i).attempt r
    (∀ v r', c.read r = (.ok v, r') ↔
      ∃ i w, v = c.variants.ofAny (.ofIndex i w) ∧ attempt i = (.ok w, r') ∧
        ∀ j < i, ∃ err, (attempt j).1 = .error err ∧ err.isFatal = false) ∧
    (∀ i err, (attempt i).1 = .error err → err.isFatal = true →
      (∀ j < i, ∃ err', (attempt j).1 = .error err') → c.read r = (.error err, r)) ∧
    ((∀ i, ∃ err, (attempt i).1 = .error err ∧ err.isFatal = false) →
      c.read r = (.error (.variantExhausted c.name r.current.name), r)) ∧
    ∀ err r', c.read r = (.error err, r') → r' = r := by
  intro attempt
  have hr := h.sound.1
  refine ⟨fun v r' => ⟨hr.exists_attempt_of_read, ?_⟩, fun i err => hr.read_of_fatal i,
    fun hall => ?_, fun err r' hread => ?_⟩
  · rintro ⟨i, w, rfl, hw, hbefore⟩
    exact readChoice_of_eq (readFirst_of_index i (fun j hj => hr.rejects (hbefore j hj))
      ((Alternative.attempt_eq _ r).symm.trans hw))
  · exact readChoice_of_eq (readFirst_of_rejects fun i => hr.rejects (hall i))
  · exact ((readChoice_follows (readLevels_child r.site) c).of_error hr.shows hread).2

/-- A source with the attributes of a volume and a protocol besides is no file, no block device
and no directory. As a network source it is read up to its host, which has no name, and then
it is read as a volume as if that had not been tried. -/
theorem Reading.Reachable.first_match_wins_volume :
    let host : Element := { name := "host" }
    let source : Element := {
      name := "source", attributes := [("protocol", "rbd"), ("pool", "p"), ("volume", "v")]
      children := [.element host] }
    let r := Reading.start source 5 true
    Choice.diskSource.read r = (.ok (.volume { pool := "p", volume := "v" }), r) := by
  intro host source r
  have h := Reading.Reachable.first_match_wins (r := r)
    (o := { maxDepth := 5, denyUnknown := true }) (.start) .diskSource
  have hvolume : (Alternative.group "Volume" .volumeSource).attempt r =
      (.ok { pool := "p", volume := "v" }, r) := by decide
  refine (h.1 _ r).mpr ⟨⟨4, by decide⟩, _, rfl, hvolume, fun j hj => ?_⟩
  match j, hj with
  | ⟨0, _⟩, _ | ⟨1, _⟩, _ | ⟨2, _⟩, _ | ⟨3, _⟩, _ => exact ⟨_, rfl, rfl⟩

end GuestXml.Schema
