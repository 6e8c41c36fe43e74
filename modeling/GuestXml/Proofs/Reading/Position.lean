import GuestXml.Proofs.Xml.Tree
import GuestXml.Schema.Reading

/-!
# Where a reading stands

A step of reading may consume children of the current element and ask for names, but it
leaves all else as it is (`Reading.Within`): the element, the elements around it, the limits,
and the names asked for before. Whatever it did can therefore be undone by a mark of three
numbers (`rewind_mark`), and stepping out of a child leads back to the parent as it was left
(`leave_eq`).
-/

namespace GuestXml

open Xml (Element Node)

/-! ### Frames -/

/-- Behind the first element of some nodes are all elements but the first. -/
theorem filterMap_element?_drop_findIdx? (nodes : List Node) :
    match nodes.findIdx? (·.element?.isSome) with
    | some i => (nodes.drop (i + 1)).filterMap Node.element? =
        (nodes.filterMap Node.element?).tail
    | none => nodes.filterMap Node.element? = [] := by
  induction nodes with
  | nil => rfl
  | cons node nodes ih =>
    cases node with
    | element e => simp [List.findIdx?_cons]
    | text s =>
      rw [List.findIdx?_cons]
      cases hidx : nodes.findIdx? (·.element?.isSome) with
      | none => simpa [hidx] using ih
      | some i => simpa [hidx, List.filterMap_cons] using ih

@[simp] theorem Frame.remaining_advance (f : Frame) : f.advance.remaining = f.remaining.tail := by
  have h := filterMap_element?_drop_findIdx? f.rest
  unfold Frame.advance
  split
  · rename_i i hidx
    simp only [hidx] at h
    rw [Frame.remaining, Frame.remaining, ← h, Frame.rest, Frame.rest, List.drop_drop,
      Nat.add_assoc]
  · rename_i hidx
    simp only [hidx] at h
    simp [Frame.remaining, h]

@[simp] theorem Frame.element_advance (f : Frame) : f.advance.element = f.element := by
  unfold Frame.advance
  split <;> rfl

@[simp] theorem Frame.remaining_start (e : Element) :
    ({ element := e } : Frame).remaining = e.childElements := rfl

namespace Schema

namespace Reading

/-! ### Staying within the current element -/

/-- What a step of reading leaves as it is. -/
structure Within (r r' : Reading) : Prop where
  outer : r'.cursor.outer = r.cursor.outer
  element : r'.cursor.top.element = r.cursor.top.element
  maxDepth : r'.cursor.maxDepth = r.cursor.maxDepth
  denyUnknown : r'.denyUnknown = r.denyUnknown
  /-- Names are only added, and all of them here. -/
  requested : ∃ new, r'.requested = new ++ r.requested ∧ ∀ p ∈ new, p.1 = r.cursor.depth

/-- No name was asked for further down than here. -/
def Tidy (r : Reading) : Prop :=
  ∀ p ∈ r.requested, p.1 ≤ r.cursor.depth

namespace Within

variable {r r' r'' : Reading}

theorem refl (r : Reading) : r.Within r :=
  ⟨rfl, rfl, rfl, rfl, [], rfl, by simp⟩

theorem depth (h : r.Within r') : r'.cursor.depth = r.cursor.depth := by
  simp [Cursor.depth, h.outer]

theorem trans (h : r.Within r') (h' : r'.Within r'') : r.Within r'' := by
  obtain ⟨new, hnew, hmem⟩ := h.requested
  obtain ⟨new', hnew', hmem'⟩ := h'.requested
  refine ⟨h'.outer.trans h.outer, h'.element.trans h.element, h'.maxDepth.trans h.maxDepth,
    h'.denyUnknown.trans h.denyUnknown, new' ++ new, by simp [hnew', hnew], ?_⟩
  intro p hp
  rcases List.mem_append.mp hp with hp | hp
  · rw [hmem' p hp, h.depth]
  · exact hmem p hp

theorem tidy (h : r.Within r') (hr : r.Tidy) : r'.Tidy := by
  obtain ⟨new, hnew, hmem⟩ := h.requested
  intro p hp
  rw [hnew] at hp
  rw [h.depth]
  rcases List.mem_append.mp hp with hp | hp
  · exact Nat.le_of_eq (hmem p hp)
  · exact hr p hp

end Within

/-- Going back to a mark undoes everything that happened within the element. -/
theorem rewind_mark {r r' : Reading} (h : r.Within r') : r'.rewind r.mark = r := by
  obtain ⟨new, hnew, -⟩ := h.requested
  have hcursor : r'.cursor.rewind r.cursor.mark = r.cursor := by
    simp only [Cursor.rewind, Cursor.mark, h.depth, Nat.sub_self, Cursor.leaveTimes]
    obtain ⟨⟨⟨e, n⟩, outer, max⟩, _, _, _⟩ := r
    obtain ⟨⟨⟨e', n'⟩, outer', max'⟩, _, _, _⟩ := r'
    obtain ⟨rfl, rfl, rfl, -, -⟩ := h
    rfl
  have hrequested : r'.requested.drop (r'.requested.length - r.requested.length) =
      r.requested := by
    rw [hnew, List.length_append, Nat.add_sub_cancel, List.drop_left]
  simp only [rewind, mark, hcursor, hrequested, h.denyUnknown]

/-! ### Stepping into a child and out again -/

/-- The reading inside a child. -/
def inside (r : Reading) (e : Element) : Reading :=
  { r with cursor :=
    { r.cursor with top := { element := e }, outer := r.cursor.top :: r.cursor.outer } }

@[simp] theorem depth_inside (r : Reading) (e : Element) :
    (r.inside e).cursor.depth = r.cursor.depth + 1 := rfl

theorem enter_eq (r : Reading) (e : Element) :
    r.cursor.enter e =
      if r.cursor.maxDepth ≤ r.cursor.depth then .error (.depthExceeded r.cursor.maxDepth)
      else .ok (r.inside e).cursor := rfl

/-- Names asked for inside a child are the latest ones, so that they are found and
forgotten on the way out. -/
theorem dropWhile_requested {new old : List (Nat × String)} {depth : Nat}
    (hnew : ∀ p ∈ new, p.1 = depth + 1) (hold : ∀ p ∈ old, p.1 ≤ depth) :
    (new ++ old).dropWhile (fun p => decide (depth < p.1)) = old := by
  induction new with
  | nil =>
    cases old with
    | nil => rfl
    | cons p old =>
      have hp := hold p (by simp)
      rw [List.nil_append, List.dropWhile_cons_of_neg (by simpa using hp)]
  | cons p new ih =>
    have hp := hnew p (by simp)
    rw [List.cons_append, List.dropWhile_cons_of_pos (by simp [hp])]
    exact ih fun q hq => hnew q (by simp [hq])

/-- Out of a child, all is as it was, save for the number of elements consumed. -/
theorem leave_eq {r r' : Reading} {e : Element} (hr : r.Tidy) (h : (r.inside e).Within r') :
    r'.leave = { r with consumed := r'.consumed } := by
  obtain ⟨new, hnew, hmem⟩ := h.requested
  have hcursor : r'.cursor.leave = r.cursor := by
    obtain ⟨⟨⟨e', n'⟩, outer', max'⟩, _, _, _⟩ := r'
    obtain ⟨rfl, -, rfl, -, -⟩ := h
    rfl
  have hrequested : r'.requested.dropWhile (r.cursor.depth < ·.1) = r.requested := by
    rw [hnew]
    exact dropWhile_requested hmem hr
  have hdeny : r'.denyUnknown = r.denyUnknown := h.denyUnknown
  simp only [leave, hcursor, hrequested, hdeny]

end Reading

/-! ### Reading inside a child -/

section WithChild

variable {α : Type} {read : ReadM α} {r r' : Reading} {e : Element}

theorem withChild_of_full (h : r.cursor.maxDepth ≤ r.cursor.depth) :
    withChild e read r = (.error (.depthExceeded r.cursor.maxDepth), r) := by
  unfold withChild
  rw [Reading.enter_eq, if_pos h]

theorem withChild_of_ok {a : α} (hroom : ¬ r.cursor.maxDepth ≤ r.cursor.depth)
    (h : read (r.inside e) = (.ok a, r')) :
    withChild e read r = (.ok a, r'.leave.consume) := by
  unfold withChild
  rw [Reading.enter_eq, if_neg hroom]
  simp only [show read { r with cursor := (r.inside e).cursor } = _ from h]

theorem withChild_of_error {err : Error} (hroom : ¬ r.cursor.maxDepth ≤ r.cursor.depth)
    (h : read (r.inside e) = (.error err, r')) :
    withChild e read r = (.error err, r'.leave) := by
  unfold withChild
  rw [Reading.enter_eq, if_neg hroom]
  simp only [show read { r with cursor := (r.inside e).cursor } = _ from h]

end WithChild

end Schema

end GuestXml
