import GuestXml.Error
import GuestXml.Xml.Tree

/-!
# Walks through a tree

A walker moves about a tree: it passes the next child, steps into a child and out again,
marks where it stands and goes back to a mark. A walk is a sequence of such moves. It is
possible if every child it enters is there, and every mark it goes back to has been taken and
is live: the depth has not dropped below the mark's since (`Taken.Live`).

* `Walker.Matches.run?_map`: walkers whose operations match make the same walks.
* `Walker.Preserves.run?`: what each operation preserves holds after every walk.
* `Walker.exists_taken_of_run?`: a mark once taken is kept.
-/

namespace GuestXml

open Xml (Element)

variable {σ μ σ' μ' : Type}

/-- What a walker with positions `σ` and marks `μ` can do. -/
structure Walker (σ μ : Type) where
  depth : σ → Nat
  /-- The child elements of the element it stands on. -/
  children : σ → List Element
  advance : σ → σ
  enter : σ → Element → Except Error σ
  leave : σ → σ
  mark : σ → μ
  rewind : σ → μ → σ

/-- A step of a walk. The child to enter is given by its place among the child elements of
the current element, the mark to go back to by its place among the marks taken. -/
inductive Move where
  | advance
  | enter (child : Nat)
  | leave
  | mark
  | rewind (mark : Nat)
  deriving DecidableEq, Repr

/-- A mark with the depth at which it was taken and the lowest depth since. -/
structure Taken (μ : Type) where
  mark : μ
  depth : Nat
  lowest : Nat
  deriving DecidableEq

namespace Taken

/-- The depth has not dropped below that of the mark. -/
def Live (t : Taken μ) : Prop :=
  t.depth ≤ t.lowest

instance (t : Taken μ) : Decidable t.Live :=
  inferInstanceAs (Decidable (t.depth ≤ t.lowest))

/-- The mark after a move that led to a depth. -/
def pass (t : Taken μ) (depth : Nat) : Taken μ :=
  { t with lowest := min t.lowest depth }

/-- The same with another mark. -/
def map (f : μ → μ') (t : Taken μ) : Taken μ' :=
  { mark := f t.mark, depth := t.depth, lowest := t.lowest }

theorem live_pass_iff {t : Taken μ} {depth : Nat} :
    (t.pass depth).Live ↔ t.Live ∧ t.depth ≤ depth :=
  Nat.le_min

@[simp] theorem mark_map (f : μ → μ') (t : Taken μ) : (t.map f).mark = f t.mark := rfl

@[simp] theorem live_map_iff {t : Taken μ} {f : μ → μ'} : (t.map f).Live ↔ t.Live := Iff.rfl

end Taken

/-- A walk so far: the position it has led to, and the marks taken on it in their order. -/
structure Walk (σ μ : Type) where
  position : σ
  taken : List (Taken μ) := []
  deriving DecidableEq

/-- The same walk of another walker. -/
def Walk.map (f : σ → σ') (g : μ → μ') (walk : Walk σ μ) : Walk σ' μ' :=
  { position := f walk.position, taken := walk.taken.map (Taken.map g) }

namespace Walker

section Run

variable (w : Walker σ μ)

/-- Where a move leads. A walker that cannot enter a child stays where it is. -/
def next? (walk : Walk σ μ) : Move → Option σ
  | .advance => some (w.advance walk.position)
  | .enter i => (w.children walk.position)[i]?.map fun child =>
    match w.enter walk.position child with
    | .ok position => position
    | .error _ => walk.position
  | .leave => some (w.leave walk.position)
  | .mark => some walk.position
  | .rewind i => walk.taken[i]?.bind fun t =>
    if t.Live then some (w.rewind walk.position t.mark) else none

/-- The marks that a move takes. -/
def newMarks (walk : Walk σ μ) : Move → List (Taken μ)
  | .mark =>
    [{ mark := w.mark walk.position
       depth := w.depth walk.position
       lowest := w.depth walk.position }]
  | _ => []

/-- A walk with one move more. -/
def step? (walk : Walk σ μ) (move : Move) : Option (Walk σ μ) :=
  (w.next? walk move).map fun position =>
    { position
      taken := walk.taken.map (·.pass (w.depth position)) ++ w.newMarks walk move }

/-- A walk with some moves more. -/
def run? (walk : Walk σ μ) : List Move → Option (Walk σ μ)
  | [] => some walk
  | move :: moves => (w.step? walk move).bind (run? · moves)

/-- The walker that remembers its whole position as a mark. -/
def remembering : Walker σ σ :=
  { w with mark := fun s => s, rewind := fun _ s => s }

end Run

/-! ### Matching walkers -/

/-- Each operation of one walker, seen through `position`, `mark` and `child`, is that of
the other. -/
structure Matches (w : Walker σ μ) (w' : Walker σ' μ') (position : σ → σ') (mark : μ → μ')
    (child : Element → Element) : Prop where
  depth : ∀ s, w'.depth (position s) = w.depth s
  children : ∀ s, w'.children (position s) = (w.children s).map child
  advance : ∀ s, w'.advance (position s) = position (w.advance s)
  enter : ∀ s e, w'.enter (position s) (child e) = (w.enter s e).map position
  leave : ∀ s, w'.leave (position s) = position (w.leave s)
  rewind : ∀ s m, w'.rewind (position s) (mark m) = position (w.rewind s m)
  mark : ∀ s, w'.mark (position s) = mark (w.mark s)

namespace Matches

variable {w : Walker σ μ} {w' : Walker σ' μ'} {position : σ → σ'} {mark : μ → μ'}
  {child : Element → Element}

theorem next?_map (h : w.Matches w' position mark child) (walk : Walk σ μ) (move : Move) :
    w'.next? (walk.map position mark) move = (w.next? walk move).map position := by
  cases move with
  | advance => simp [next?, Walk.map, h.advance]
  | leave => simp [next?, Walk.map, h.leave]
  | mark => rfl
  | enter i =>
    simp only [next?, Walk.map, h.children, List.getElem?_map, Option.map_map]
    refine congrArg (Option.map · _) (funext fun e => ?_)
    simp only [Function.comp, h.enter]
    cases w.enter walk.position e <;> rfl
  | rewind i =>
    simp only [next?, Walk.map, List.getElem?_map]
    cases walk.taken[i]? with
    | none => rfl
    | some t =>
      by_cases ht : t.Live <;> simp [ht, h.rewind]

theorem newMarks_map (h : w.Matches w' position mark child) (walk : Walk σ μ) (move : Move) :
    w'.newMarks (walk.map position mark) move = (w.newMarks walk move).map (Taken.map mark) := by
  cases move <;> simp [newMarks, Walk.map, Taken.map, h.mark, h.depth]

theorem step?_map (h : w.Matches w' position mark child) (walk : Walk σ μ) (move : Move) :
    w'.step? (walk.map position mark) move = (w.step? walk move).map (Walk.map position mark) := by
  simp only [step?, h.next?_map, h.newMarks_map, Option.map_map]
  refine congrArg (Option.map · _) (funext fun s => ?_)
  simp [Walk.map, h.depth, Function.comp_def, Taken.map, Taken.pass]

/-- Walkers that match make the same walks. -/
theorem run?_map (h : w.Matches w' position mark child) (walk : Walk σ μ) (moves : List Move) :
    w'.run? (walk.map position mark) moves =
      (w.run? walk moves).map (Walk.map position mark) := by
  induction moves generalizing walk with
  | nil => rfl
  | cons move moves ih =>
    rw [run?, run?, h.step?_map]
    cases w.step? walk move with
    | none => rfl
    | some walk' => exact ih walk'

end Matches

/-! ### What walks preserve -/

/-- A property of positions that no operation destroys. -/
structure Preserves (w : Walker σ μ) (I : σ → Prop) : Prop where
  advance : ∀ {s}, I s → I (w.advance s)
  enter : ∀ {s s' child}, I s → w.enter s child = .ok s' → I s'
  leave : ∀ {s}, I s → I (w.leave s)
  rewind : ∀ {s} (m : μ), I s → I (w.rewind s m)

variable {w : Walker σ μ} {walk walk' : Walk σ μ} {move : Move} {moves : List Move}

/-- What a move can lead to. -/
inductive Leads (w : Walker σ μ) (walk : Walk σ μ) : σ → Prop
  | advance : Leads w walk (w.advance walk.position)
  | enter {child : Element} {s : σ} (h : w.enter walk.position child = .ok s) : Leads w walk s
  | leave : Leads w walk (w.leave walk.position)
  | stay : Leads w walk walk.position
  | rewind {i : Nat} {t : Taken μ} (ht : walk.taken[i]? = some t) (hlive : t.Live) :
    Leads w walk (w.rewind walk.position t.mark)

theorem leads_of_next? {s : σ} (hs : w.next? walk move = some s) : w.Leads walk s := by
  cases move with
  | advance => exact Option.some.inj hs ▸ .advance
  | leave => exact Option.some.inj hs ▸ .leave
  | mark => exact Option.some.inj hs ▸ .stay
  | enter i =>
    obtain ⟨child, -, hchild⟩ := Option.map_eq_some_iff.mp hs
    split at hchild
    · rename_i position henter
      exact hchild ▸ .enter henter
    · exact hchild ▸ .stay
  | rewind i =>
    obtain ⟨t, ht, hrewind⟩ := Option.bind_eq_some_iff.mp hs
    split at hrewind
    · rename_i hlive
      exact Option.some.inj hrewind ▸ .rewind ht hlive
    · cases hrewind

theorem Preserves.next? {I : σ → Prop} (h : w.Preserves I) {s : σ} (hI : I walk.position)
    (hs : w.next? walk move = some s) : I s := by
  cases leads_of_next? hs with
  | advance => exact h.advance hI
  | enter henter => exact h.enter hI henter
  | leave => exact h.leave hI
  | stay => exact hI
  | rewind => exact h.rewind _ hI

theorem step?_eq_some_iff :
    w.step? walk move = some walk' ↔
      w.next? walk move = some walk'.position ∧
        walk'.taken =
          walk.taken.map (·.pass (w.depth walk'.position)) ++ w.newMarks walk move := by
  obtain ⟨position, taken⟩ := walk'
  simp only [step?, Option.map_eq_some_iff, Walk.mk.injEq]
  constructor
  · rintro ⟨s, hs, rfl, rfl⟩
    exact ⟨hs, rfl⟩
  · rintro ⟨hs, rfl⟩
    exact ⟨position, hs, rfl, rfl⟩

theorem Preserves.run? {I : σ → Prop} (h : w.Preserves I) (hI : I walk.position)
    (hrun : w.run? walk moves = some walk') : I walk'.position := by
  induction moves generalizing walk with
  | nil => exact Option.some.inj hrun ▸ hI
  | cons move moves ih =>
    obtain ⟨next, hstep, hrest⟩ := Option.bind_eq_some_iff.mp hrun
    exact ih (h.next? hI (step?_eq_some_iff.mp hstep).1) hrest

/-- A mark keeps its place among the marks taken. -/
theorem exists_taken_of_run? (hrun : w.run? walk moves = some walk') {i : Nat} {t : Taken μ}
    (ht : walk.taken[i]? = some t) :
    ∃ t', walk'.taken[i]? = some t' ∧ t'.mark = t.mark ∧ t'.depth = t.depth := by
  induction moves generalizing walk t with
  | nil => exact ⟨t, Option.some.inj hrun ▸ ht, rfl, rfl⟩
  | cons move moves ih =>
    obtain ⟨next, hstep, hrest⟩ := Option.bind_eq_some_iff.mp hrun
    have htaken := (step?_eq_some_iff.mp hstep).2
    have hnext : next.taken[i]? = some (t.pass (w.depth next.position)) := by
      rw [htaken, List.getElem?_append_left (by
        simpa using (List.getElem?_eq_some_iff.mp ht).1)]
      simp [ht]
    obtain ⟨t', ht', hmark, hdepth⟩ := ih hrest hnext
    exact ⟨t', ht', hmark, hdepth⟩

/-- After a mark is taken, it comes right behind those taken before. -/
theorem exists_taken_of_run?_mark (hrun : w.run? walk (.mark :: moves) = some walk') :
    ∃ t, walk'.taken[walk.taken.length]? = some t ∧ t.mark = w.mark walk.position ∧
      t.depth = w.depth walk.position := by
  obtain ⟨next, hstep, hrest⟩ := Option.bind_eq_some_iff.mp hrun
  have hnext : next.taken[walk.taken.length]? =
      some ⟨w.mark walk.position, w.depth walk.position, w.depth walk.position⟩ := by
    rw [(step?_eq_some_iff.mp hstep).2, List.getElem?_append_right (by simp)]
    simp [newMarks]
  exact exists_taken_of_run? hrest hnext

end Walker

end GuestXml
