import GuestXml.Proofs.Cursor.Rewind
import GuestXml.Proofs.Reading.Position

/-!
# A cursor is a stack of queues

Seen from outside, a cursor is a stack of elements, each with the queue of its child elements
that are not consumed. Advancing drops the head of the topmost queue, entering pushes a child
with the full queue of its child elements, and leaving pops. How many nodes lie between the
elements is not seen, nor is what a mark consists of: going back to one brings back the whole
stack (`Cursor.behaves_as_queues`).
-/

namespace GuestXml

open Xml (Element)

/-- An element entered, and its child elements that are not consumed. -/
structure Level where
  element : Element
  queue : List Element
  deriving DecidableEq

/-- The elements entered, from the innermost outwards. -/
structure Queues where
  top : Level
  outer : List Level := []
  maxDepth : Nat
  deriving DecidableEq

/-- An element just entered. -/
def Level.start (e : Element) : Level :=
  { element := e, queue := e.childElements }

/-- The same level of another tree. -/
def Level.map (f : Element → Element) (l : Level) : Level :=
  { element := f l.element, queue := l.queue.map f }

namespace Queues

/-- The root alone. A limit of zero counts as one. -/
def start (root : Element) (maxDepth : Nat) : Queues :=
  { top := .start root, maxDepth := max maxDepth 1 }

/-- The number of levels. -/
def depth (q : Queues) : Nat :=
  q.outer.length + 1

/-- Drops the head of the topmost queue. -/
def advance (q : Queues) : Queues :=
  { q with top := { q.top with queue := q.top.queue.tail } }

/-- Pushes a child, if there is room for it. -/
def enter (q : Queues) (child : Element) : Except Error Queues :=
  if q.depth < q.maxDepth then
    .ok { q with top := .start child, outer := q.top :: q.outer }
  else .error (.depthExceeded q.maxDepth)

/-- Pops the topmost level, unless it is the only one. -/
def leave (q : Queues) : Queues :=
  match q.outer with
  | [] => q
  | l :: r => { q with top := l, outer := r }

/-- A stack of queues as a walker. A mark is a copy of the stack. -/
def walker : Walker Queues Queues where
  depth := depth
  children q := q.top.element.childElements
  advance := advance
  enter := enter
  leave := leave
  mark q := q
  rewind _ m := m

/-- The same stack for another tree. -/
def map (f : Element → Element) (q : Queues) : Queues :=
  { q with top := q.top.map f, outer := q.outer.map (Level.map f) }

section Map

variable {f : Element → Element} (hf : ∀ e, (f e).childElements = e.childElements.map f)
include hf

theorem level_start_map (e : Element) : Level.start (f e) = (Level.start e).map f := by
  simp [Level.start, Level.map, hf]

theorem start_map (root : Element) (maxDepth : Nat) :
    start (f root) maxDepth = (start root maxDepth).map f := by
  simp [start, map, level_start_map hf]

/-- What is done with elements goes unnoticed as long as their child elements are kept. -/
theorem matches_map : walker.Matches walker (map f) (map f) f where
  depth q := by simp [walker, depth, map]
  children q := hf q.top.element
  advance q := by simp [walker, advance, map, Level.map, List.map_tail]
  enter q e := by
    have hdepth : (q.map f).depth = q.depth := by simp [depth, map]
    have hlimit : (q.map f).maxDepth = q.maxDepth := rfl
    simp only [walker, enter, hdepth, hlimit, level_start_map hf]
    split <;> rfl
  leave q := by
    obtain ⟨top, _ | ⟨l, outer⟩, maxDepth⟩ := q <;> rfl
  rewind _ _ := rfl
  mark _ := rfl

end Map

end Queues

/-- A frame as it is seen from outside. -/
def Frame.level (f : Frame) : Level :=
  { element := f.element, queue := f.remaining }

namespace Cursor

/-- A cursor as it is seen from outside. -/
def queues (c : Cursor) : Queues :=
  { top := c.top.level, outer := c.outer.map Frame.level, maxDepth := c.maxDepth }

/-! ### Each operation -/

@[simp] theorem depth_queues (c : Cursor) : c.queues.depth = c.depth := by
  simp [queues, Queues.depth, depth]

theorem queues_advance (c : Cursor) : c.advance.queues = c.queues.advance := by
  simp [queues, advance, Queues.advance, Frame.level]

theorem queues_enter (c : Cursor) (child : Element) :
    (c.enter child).map queues = c.queues.enter child := by
  by_cases h : c.maxDepth ≤ c.depth
  · have h' : ¬ c.queues.depth < c.queues.maxDepth := by
      rw [depth_queues]
      exact Nat.not_lt.mpr h
    rw [enter, if_pos h, Queues.enter, if_neg h']
    rfl
  · have h' : c.queues.depth < c.queues.maxDepth := by
      rw [depth_queues]
      exact Nat.not_le.mp h
    rw [enter, if_neg h, Queues.enter, if_pos h']
    rfl

theorem queues_leave (c : Cursor) : c.leave.queues = c.queues.leave := by
  obtain ⟨top, _ | ⟨f, outer⟩, maxDepth⟩ := c <;> rfl

/-- A cursor with copies of itself for marks is a stack of queues. -/
theorem matches_queues : walker.remembering.Matches Queues.walker queues queues id where
  depth := depth_queues
  children _ := (List.map_id _).symm
  advance c := (queues_advance c).symm
  enter c child := (queues_enter c child).symm
  leave c := (queues_leave c).symm
  rewind _ _ := rfl
  mark _ := rfl

/-! ### Whole walks -/

/-- The depth is within the limit, and this is always the same. -/
theorem preserves_depth_le (limit : Nat) :
    walker.Preserves fun c => c.maxDepth = limit ∧ c.depth ≤ limit := by
  have hleave : ∀ c : Cursor, c.maxDepth = limit ∧ c.depth ≤ limit →
      c.leave.maxDepth = limit ∧ c.leave.depth ≤ limit := by
    intro c h
    have hpos := c.depth_pos
    refine ⟨(maxDepth_leave c).trans h.1, ?_⟩
    rw [depth_leave]
    omega
  refine ⟨fun h => h, ?_, hleave _, fun m h => rewind_induction hleave (fun _ _ h => h) h m⟩
  intro c c' child h henter
  obtain ⟨hlt, rfl⟩ := enter_eq_ok_iff.mp henter
  exact ⟨h.1, h.1 ▸ hlt⟩

/-- A walk of a cursor is a walk of the stack of queues that it is. -/
theorem run?_queues (c : Cursor) (moves : List Move) :
    (walker.run? { position := c } moves).map (·.position.queues) =
      (Queues.walker.run? { position := c.queues } moves).map (·.position) := by
  have hcopies := (shadows_start c).run_position moves
  have hqueues := matches_queues.run?_map { position := c } moves
  calc (walker.run? { position := c } moves).map (·.position.queues)
      = ((walker.run? { position := c } moves).map (·.position)).map queues := by
        rw [Option.map_map]
        rfl
    _ = ((walker.remembering.run? { position := c } moves).map (·.position)).map queues := by
        rw [hcopies]
    _ = ((walker.remembering.run? { position := c } moves).map (Walk.map queues queues)).map
          (·.position) := by
        rw [Option.map_map, Option.map_map]
        rfl
    _ = (Queues.walker.run? { position := c.queues } moves).map (·.position) := by
        rw [← hqueues]
        rfl

/-- Without text, a tree is walked just the same. -/
theorem run?_withoutText (root : Element) (maxDepth : Nat) (moves : List Move) :
    (walker.run? { position := start root.withoutText maxDepth } moves).map (·.position.queues) =
      (walker.run? { position := start root maxDepth } moves).map
        (·.position.queues.map Element.withoutText) := by
  have hmap := (Queues.matches_map Element.childElements_withoutText).run?_map
    { position := .start root maxDepth } moves
  have hstart := Queues.start_map Element.childElements_withoutText root maxDepth
  calc (walker.run? { position := start root.withoutText maxDepth } moves).map (·.position.queues)
      = (Queues.walker.run? { position := .start root.withoutText maxDepth } moves).map
          (·.position) := run?_queues _ moves
    _ = ((Queues.walker.run? { position := .start root maxDepth } moves).map (·.position)).map
          (Queues.map Element.withoutText) := by
        rw [hstart]
        refine (congrArg (Option.map _) hmap).trans ?_
        rw [Option.map_map, Option.map_map]
        rfl
    _ = ((walker.run? { position := start root maxDepth } moves).map (·.position.queues)).map
          (Queues.map Element.withoutText) := by
        rw [run?_queues]
        rfl
    _ = (walker.run? { position := start root maxDepth } moves).map
          (·.position.queues.map Element.withoutText) := by
        rw [Option.map_map]
        rfl

/-- What is seen of a cursor and what its operations make of it, in terms of a stack of
queues. -/
structure ActsAs (c : Cursor) (q : Queues) : Prop where
  current : c.current = q.top.element
  peek : c.peek? = q.top.queue.head?
  remaining : c.remaining = q.top.queue
  depth : c.depth = q.depth
  advance : c.advance.queues = q.advance
  enter : ∀ child, (c.enter child).map queues = q.enter child
  leave : c.leave.queues = q.leave

theorem actsAs_queues (c : Cursor) : c.ActsAs c.queues where
  current := rfl
  peek := rfl
  remaining := rfl
  depth := (depth_queues c).symm
  advance := queues_advance c
  enter := queues_enter c
  leave := queues_leave c

/-- **Cursors are stacks of queues.** However a cursor is moved about in a tree, it shows and
does what the stack of queues does that is moved likewise, within the limit on its depth, and
text anywhere in the tree makes no difference. Going back to a live mark restores the cursor
from which it was taken, whatever came between. -/
theorem behaves_as_queues (root : Element) (maxDepth : Nat) (moves : List Move) :
    (walker.run? { position := start root maxDepth } moves).map (·.position.queues) =
        (Queues.walker.run? { position := .start root maxDepth } moves).map (·.position) ∧
      (walker.run? { position := start root.withoutText maxDepth } moves).map
          (·.position.queues) =
        (walker.run? { position := start root maxDepth } moves).map
          (·.position.queues.map Element.withoutText) ∧
      ∀ walk, walker.run? { position := start root maxDepth } moves = some walk →
        walk.position.ActsAs walk.position.queues ∧
        walk.position.queues.maxDepth = max maxDepth 1 ∧
        1 ≤ walk.position.depth ∧ walk.position.depth ≤ max maxDepth 1 ∧
        ∀ between walk', walker.run? walk (.mark :: between) = some walk' →
          ∃ t, walk'.taken[walk.taken.length]? = some t ∧
            t.mark = walk.position.mark ∧ t.depth = walk.position.depth ∧
            (t.Live → walk'.position.rewind t.mark = walk.position) := by
  refine ⟨run?_queues _ moves, run?_withoutText root maxDepth moves, fun walk hrun => ?_⟩
  have hstart : (start root maxDepth).maxDepth = max maxDepth 1 ∧
      (start root maxDepth).depth ≤ max maxDepth 1 :=
    ⟨rfl, Nat.le_max_right _ _⟩
  obtain ⟨hlimit, hdepth⟩ := (preserves_depth_le _).run? hstart hrun
  obtain ⟨copies, -, hshadows⟩ := (shadows_start (start root maxDepth)).exists_run hrun
  exact ⟨actsAs_queues _, hlimit, walk.position.depth_pos, hdepth,
    fun between walk' hbetween => hshadows.exists_taken hbetween⟩

/-- A domain with two devices, and text all around them. -/
def spacedDomain : Element :=
  { name := "domain"
    children :=
      [.text "\n", .element { name := "name", children := [.text "vm"] }, .text "\n",
        .element
          { name := "devices"
            children := [.text "\n", .element { name := "disk" }, .text "\n",
              .element { name := "interface" }, .text "\n"] },
        .text "\n"] }

/-- Whatever is done with the devices is undone by a mark taken before, although other marks
were taken and gone back to meanwhile. -/
theorem behaves_as_queues_devices :
    ∃ walk walk',
      walker.run? { position := start spacedDomain 3 } [.mark, .advance] = some walk ∧
      walk.position.remaining.map (·.name) = ["devices"] ∧
      walker.run? walk
        [.mark, .enter 1, .advance, .mark, .enter 1, .leave, .advance, .rewind 2, .leave,
          .advance] = some walk' ∧
      walk'.position.remaining = [] ∧
      walk'.position.rewind walk.position.mark = walk.position := by
  have hwalks := (behaves_as_queues spacedDomain 3 [.mark, .advance]).2.2
  obtain ⟨-, -, -, -, hmarks⟩ := hwalks _ rfl
  obtain ⟨t, ht, -, -, hback⟩ := hmarks
    [.mark, .enter 1, .advance, .mark, .enter 1, .leave, .advance, .rewind 2, .leave,
      .advance] _ rfl
  obtain rfl := Option.some.inj ht
  exact ⟨_, _, rfl, rfl, rfl, rfl, hback (by decide)⟩

end Cursor

end GuestXml
