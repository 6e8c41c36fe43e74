import GuestXml.Cursor
import GuestXml.Proofs.Cursor.Walk
import Mathlib.Data.List.Forall2

/-!
# Going back to a mark

A mark holds a depth and one number, yet going back to it brings back the whole cursor it was
taken from, as long as it is live. Only the innermost frame of a cursor is ever touched, so
that while the depth does not drop below the mark's, the frames further out stay as they were,
and the frame at its depth is of the same element still: the number is all that can be wrong
about it.

Hence no move changes what a live mark leads back to (`Cursor.Keeps`). A walk goes as if each
mark were a copy of the cursor (`Cursor.Shadows.run_position`), and going back to a live mark
restores the cursor from which it was taken (`Cursor.Shadows.exists_taken`).
-/

namespace GuestXml

open Xml (Element)

namespace Cursor

variable {c c' : Cursor} {m m' : Mark}

/-- A cursor as a walker. -/
def walker : Walker Cursor Mark where
  depth := depth
  children c := c.current.childElements
  advance := advance
  enter := enter
  leave := leave
  mark := mark
  rewind := rewind

/-! ### Single moves -/

theorem depth_pos (c : Cursor) : 0 < c.depth :=
  Nat.succ_pos _

theorem enter_eq_ok_iff {child : Element} :
    c.enter child = .ok c' ↔ c.depth < c.maxDepth ∧
      c' = { c with top := { element := child }, outer := c.top :: c.outer } := by
  unfold enter
  by_cases h : c.maxDepth ≤ c.depth
  · simp [h, Nat.not_lt.mpr h]
  · simp [h, Nat.not_le.mp h, eq_comm]

theorem depth_leave (c : Cursor) : c.leave.depth = max (c.depth - 1) 1 := by
  obtain ⟨top, _ | ⟨f, outer⟩, maxDepth⟩ := c
  · rfl
  · simp [leave, depth]

@[simp] theorem maxDepth_leave (c : Cursor) : c.leave.maxDepth = c.maxDepth := by
  unfold leave
  split <;> rfl

/-- The cursor with another number of nodes of its element consumed. -/
def skipTo (c : Cursor) (next : Nat) : Cursor :=
  { c with top := { c.top with next } }

theorem exists_advance_eq_skipTo (c : Cursor) : ∃ next, c.advance = c.skipTo next := by
  unfold advance Frame.advance
  split
  · exact ⟨_, rfl⟩
  · exact ⟨c.top.next, rfl⟩

theorem leave_skipTo (h : 1 < c.depth) (next : Nat) : (c.skipTo next).leave = c.leave := by
  obtain ⟨top, _ | ⟨f, outer⟩, maxDepth⟩ := c
  · exact absurd h (Nat.lt_irrefl 1)
  · rfl

/-! ### What a mark leads back to -/

@[simp] theorem rewind_mark (c : Cursor) : c.rewind c.mark = c := by
  simp [rewind, mark, leaveTimes]

theorem rewind_of_depth_eq (h : m.depth = c.depth) : c.rewind m = c.skipTo m.next := by
  simp [rewind, h, leaveTimes, skipTo]

/-- A mark further out can as well be gone back to from the parent. -/
theorem rewind_leave (hpos : 0 < m.depth) (h : m.depth < c.depth) :
    c.leave.rewind m = c.rewind m := by
  have hdepth : c.depth - m.depth = c.leave.depth - m.depth + 1 := by
    rw [depth_leave]
    omega
  simp only [rewind, hdepth, leaveTimes]

/-- What holds at a mark's depth, and inside an element whenever it holds outside of it,
holds wherever the mark can be gone back to from. -/
@[elab_as_elim]
theorem outward_induction {P : ∀ c : Cursor, m.depth ≤ c.depth → Prop} (hpos : 0 < m.depth)
    (here : ∀ (c : Cursor) (h : m.depth = c.depth), P c (Nat.le_of_eq h))
    (inside : ∀ (c : Cursor) (h : m.depth < c.depth) (h' : m.depth ≤ c.leave.depth),
      P c.leave h' → P c (Nat.le_of_lt h))
    (c : Cursor) (h : m.depth ≤ c.depth) : P c h := by
  obtain heq | hlt := Nat.eq_or_lt_of_le h
  · exact here c heq
  · have hleave : c.leave.depth = c.depth - 1 := by
      rw [depth_leave]
      omega
    have hle : m.depth ≤ c.leave.depth := by omega
    exact inside c hlt hle (outward_induction hpos here inside c.leave hle)
termination_by c.depth

theorem depth_rewind (hpos : 0 < m.depth) (h : m.depth ≤ c.depth) :
    (c.rewind m).depth = m.depth := by
  induction c, h using outward_induction hpos with
  | here c heq =>
    rw [rewind_of_depth_eq heq, heq]
    rfl
  | inside c hlt hle ih => rw [← rewind_leave hpos hlt, ih]

/-- What leaving and skipping keep, going back to any mark keeps. -/
theorem rewind_induction {P : Cursor → Prop} (hleave : ∀ c : Cursor, P c → P c.leave)
    (hskip : ∀ (c : Cursor) (next : Nat), P c → P (c.skipTo next)) (h : P c) (m : Mark) :
    P (c.rewind m) := by
  have hback : ∀ (n : Nat) (c : Cursor), P c → P (c.leaveTimes n) := by
    intro n
    induction n with
    | zero => exact fun c hc => hc
    | succ n ih => exact fun c hc => ih c.leave (hleave c hc)
  exact hskip _ m.next (hback _ c h)

/-- The same marks lead back to the same place, as long as they are not further in. -/
def Keeps (c c' : Cursor) : Prop :=
  ∀ m : Mark, 0 < m.depth → m.depth ≤ c.depth → m.depth ≤ c'.depth → c'.rewind m = c.rewind m

namespace Keeps

theorem refl (c : Cursor) : c.Keeps c :=
  fun _ _ _ _ => rfl

theorem skipTo (c : Cursor) (next : Nat) : c.Keeps (c.skipTo next) := by
  intro m hpos h h'
  obtain heq | hlt := Nat.eq_or_lt_of_le h
  · rw [rewind_of_depth_eq heq, rewind_of_depth_eq (c := c.skipTo next) heq]
    rfl
  · rw [← rewind_leave hpos hlt, ← rewind_leave (c := c.skipTo next) hpos hlt,
      leave_skipTo (by omega)]

theorem advance (c : Cursor) : c.Keeps c.advance := by
  obtain ⟨next, hnext⟩ := c.exists_advance_eq_skipTo
  rw [hnext]
  exact skipTo c next

theorem enter {child : Element} (h : c.enter child = .ok c') : c.Keeps c' := by
  obtain ⟨-, rfl⟩ := enter_eq_ok_iff.mp h
  intro m hpos hle _
  have hlt := Nat.lt_succ_of_le hle
  exact (rewind_leave (c := { c with top := { element := child }, outer := c.top :: c.outer })
    hpos hlt).symm

theorem leave (c : Cursor) : c.Keeps c.leave := by
  intro m hpos h h'
  obtain heq | hlt := Nat.eq_or_lt_of_le h
  · -- Only at the root does leaving keep the depth, and there nothing happens.
    obtain ⟨top, _ | ⟨f, outer⟩, maxDepth⟩ := c
    · rfl
    · exact absurd h' (by simp [heq, Cursor.leave, depth])
  · exact rewind_leave hpos hlt

theorem rewind (hpos : 0 < m'.depth) (h : m'.depth ≤ c.depth) : c.Keeps (c.rewind m') := by
  intro m hm hc hc'
  rw [depth_rewind hpos h] at hc'
  induction c, h using outward_induction hpos with
  | here c heq =>
    rw [rewind_of_depth_eq heq]
    exact skipTo c m'.next m hm hc hc
  | inside c hlt hle ih =>
    rw [← rewind_leave hpos hlt, ih (Nat.le_trans hc' hle), rewind_leave hm (by omega)]

end Keeps

/-! ### Walks with marks and walks with copies -/

/-- A mark taken earlier, and the cursor it was taken from. -/
structure Remembers (c : Cursor) (t : Taken Mark) (t' : Taken Cursor) : Prop where
  depth : t'.depth = t.depth
  lowest : t'.lowest = t.lowest
  depth_mark : t.mark.depth = t.depth
  depth_pos : 0 < t.depth
  lowest_le : t.lowest ≤ c.depth
  rewind : t.Live → c.rewind t.mark = t'.mark

namespace Remembers

variable {t : Taken Mark} {t' : Taken Cursor}

theorem live_iff (h : Remembers c t t') : t'.Live ↔ t.Live := by
  simp only [Taken.Live, h.depth, h.lowest]

theorem depth_mark_le (h : Remembers c t t') (ht : t.Live) : t.mark.depth ≤ c.depth :=
  h.depth_mark ▸ Nat.le_trans ht h.lowest_le

theorem new (c : Cursor) :
    Remembers c { mark := c.mark, depth := c.depth, lowest := c.depth }
      { mark := c, depth := c.depth, lowest := c.depth } where
  depth := rfl
  lowest := rfl
  depth_mark := rfl
  depth_pos := c.depth_pos
  lowest_le := Nat.le_refl _
  rewind _ := c.rewind_mark

theorem pass (h : Remembers c t t') (hkeeps : c.Keeps c') :
    Remembers c' (t.pass c'.depth) (t'.pass c'.depth) where
  depth := h.depth
  lowest := congrArg (min · c'.depth) h.lowest
  depth_mark := h.depth_mark
  depth_pos := h.depth_pos
  lowest_le := Nat.min_le_right _ _
  rewind ht := by
    obtain ⟨hlive, hle⟩ := Taken.live_pass_iff.mp ht
    have hpos : 0 < t.mark.depth := h.depth_mark ▸ h.depth_pos
    have hkept : c'.rewind t.mark = c.rewind t.mark :=
      hkeeps t.mark hpos (h.depth_mark_le hlive) (h.depth_mark ▸ hle)
    exact hkept.trans (h.rewind hlive)

end Remembers

/-- Two walks at the same position, one with marks and one with the cursors these were taken
from. -/
structure Shadows (walk : Walk Cursor Mark) (copies : Walk Cursor Cursor) : Prop where
  position : copies.position = walk.position
  taken : List.Forall₂ (Remembers walk.position) walk.taken copies.taken

theorem exists_getElem?_of_forall₂ {α β : Type} {R : α → β → Prop} {xs : List α} {ys : List β}
    (h : List.Forall₂ R xs ys) {i : Nat} {x : α} (hx : xs[i]? = some x) :
    ∃ y, ys[i]? = some y ∧ R x y := by
  induction h generalizing i with
  | nil => simp at hx
  | @cons a b xs ys hab _ ih =>
    cases i with
    | zero => exact ⟨b, rfl, Option.some.inj hx ▸ hab⟩
    | succ i => exact ih hx

namespace Shadows

variable {walk : Walk Cursor Mark} {copies : Walk Cursor Cursor} {move : Move}

theorem next?_eq (h : Shadows walk copies) :
    walker.remembering.next? copies move = walker.next? walk move := by
  obtain ⟨c, taken⟩ := walk
  obtain ⟨_, taken'⟩ := copies
  obtain ⟨rfl, htaken⟩ := h
  cases move with
  | rewind i =>
    simp only [Walker.next?]
    cases ht : taken[i]? with
    | none =>
      have ht' : taken'[i]? = none := by
        rwa [List.getElem?_eq_none_iff, ← htaken.length_eq, ← List.getElem?_eq_none_iff]
      rw [ht']
      rfl
    | some t =>
      obtain ⟨t', ht', hmark⟩ := exists_getElem?_of_forall₂ htaken ht
      rw [ht']
      by_cases hlive : t.Live
      · simp [hlive, hmark.live_iff, walker, Walker.remembering, hmark.rewind hlive]
      · simp [hlive, hmark.live_iff]
  | _ => rfl

theorem keeps (h : Shadows walk copies) (hnext : walker.next? walk move = some c') :
    walk.position.Keeps c' := by
  cases Walker.leads_of_next? hnext with
  | advance => exact Keeps.advance _
  | enter henter => exact Keeps.enter henter
  | leave => exact Keeps.leave _
  | stay => exact Keeps.refl _
  | rewind ht hlive =>
    obtain ⟨t', -, hmark⟩ := exists_getElem?_of_forall₂ h.taken ht
    exact Keeps.rewind (hmark.depth_mark ▸ hmark.depth_pos) (hmark.depth_mark_le hlive)

theorem newMarks (h : Shadows walk copies) (hnext : walker.next? walk move = some c') :
    List.Forall₂ (Remembers c') (walker.newMarks walk move)
      (walker.remembering.newMarks copies move) := by
  obtain ⟨c, taken⟩ := walk
  obtain ⟨_, taken'⟩ := copies
  obtain ⟨rfl, -⟩ := h
  cases move with
  | mark => exact Option.some.inj hnext ▸ .cons (Remembers.new _) .nil
  | _ => exact .nil

theorem step (h : Shadows walk copies) (move : Move) :
    Option.Rel Shadows (walker.step? walk move) (walker.remembering.step? copies move) := by
  simp only [Walker.step?, h.next?_eq]
  cases hnext : walker.next? walk move with
  | none => exact .none
  | some c' =>
    have hpass : List.Forall₂ (Remembers c') (walk.taken.map (·.pass c'.depth))
        (copies.taken.map (·.pass c'.depth)) := by
      rw [List.forall₂_map_left_iff, List.forall₂_map_right_iff]
      exact h.taken.imp fun t t' ht => ht.pass (h.keeps hnext)
    exact .some ⟨rfl, List.rel_append hpass (h.newMarks hnext)⟩

theorem run (h : Shadows walk copies) (moves : List Move) :
    Option.Rel Shadows (walker.run? walk moves) (walker.remembering.run? copies moves) := by
  induction moves generalizing walk copies with
  | nil => exact .some h
  | cons move moves ih =>
    have hstep := h.step move
    simp only [Walker.run?]
    generalize walker.step? walk move = next, walker.remembering.step? copies move = next'
      at hstep ⊢
    cases hstep with
    | none => exact .none
    | some hnext => exact ih hnext

theorem exists_run (h : Shadows walk copies) {moves : List Move} {walk' : Walk Cursor Mark}
    (hrun : walker.run? walk moves = some walk') :
    ∃ copies', walker.remembering.run? copies moves = some copies' ∧ Shadows walk' copies' := by
  have hrel := h.run moves
  rw [hrun] at hrel
  generalize walker.remembering.run? copies moves = next' at hrel ⊢
  cases hrel with
  | some h' => exact ⟨_, rfl, h'⟩

theorem run_position (h : Shadows walk copies) (moves : List Move) :
    (walker.remembering.run? copies moves).map (·.position) =
      (walker.run? walk moves).map (·.position) := by
  have hrel := h.run moves
  generalize walker.run? walk moves = next, walker.remembering.run? copies moves = next' at hrel ⊢
  cases hrel with
  | none => rfl
  | some h' => exact congrArg some h'.position

/-- Going back to a live mark restores the cursor from which the mark was taken. -/
theorem exists_taken (h : Shadows walk copies) {between : List Move} {walk' : Walk Cursor Mark}
    (hrun : walker.run? walk (.mark :: between) = some walk') :
    ∃ t, walk'.taken[walk.taken.length]? = some t ∧ t.mark = walk.position.mark ∧
      t.depth = walk.position.depth ∧
      (t.Live → walk'.position.rewind t.mark = walk.position) := by
  obtain ⟨copies', hcopies, h'⟩ := h.exists_run hrun
  obtain ⟨t, ht, hmark, hdepth⟩ := Walker.exists_taken_of_run?_mark hrun
  obtain ⟨copy, hcopy, hposition, -⟩ := Walker.exists_taken_of_run?_mark hcopies
  obtain ⟨copy', hcopy', hback⟩ := exists_getElem?_of_forall₂ h'.taken ht
  have hsame : copy' = copy := by
    rw [← h.taken.length_eq] at hcopy
    exact Option.some.inj (hcopy'.symm.trans hcopy)
  have hcursor : copy'.mark = walk.position := by
    rw [hsame, hposition]
    exact h.position
  exact ⟨t, ht, hmark, hdepth, fun hlive => (hback.rewind hlive).trans hcursor⟩

end Shadows

/-- A walk that starts anywhere, with no marks taken. -/
theorem shadows_start (c : Cursor) : Shadows { position := c } { position := c } :=
  ⟨rfl, .nil⟩

end Cursor

end GuestXml
