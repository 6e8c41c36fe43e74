import GuestXml.Error

/-!
# Computations that may fail

A fallible computation works on a state and ends with a value or an error. What it did to
the state before it failed stays done; whoever wants it undone has to say so.
-/

namespace GuestXml

/-- A computation over a state that may fail. -/
def Fallible (σ α : Type) : Type :=
  σ → Except Error α × σ

namespace Fallible

variable {σ α β : Type}

/-- Runs a computation. -/
def run (x : Fallible σ α) (s : σ) : Except Error α × σ :=
  x s

instance : Monad (Fallible σ) where
  pure a := fun s => (.ok a, s)
  bind x f := fun s =>
    match x s with
    | (.ok a, s') => f a s'
    | (.error e, s') => (.error e, s')

/-- Fails. -/
def fail (e : Error) : Fallible σ α :=
  fun s => (.error e, s)

/-- The state, seen through a function. -/
def view (f : σ → α) : Fallible σ α :=
  fun s => (.ok (f s), s)

/-- Changes the state. -/
def update (f : σ → σ) : Fallible σ Unit :=
  fun s => (.ok (), f s)

/-- A result that does not depend on the state. -/
def ofExcept (r : Except Error α) : Fallible σ α :=
  fun s => (r, s)

/-- Computes a value in place of one that is held. A failure leaves that one as it is. -/
def into (x : Fallible σ α) : Fallible (α × σ) Unit := fun (held, s) =>
  match x s with
  | (.ok a, s') => (.ok (), a, s')
  | (.error e, s') => (.error e, held, s')

/-! ### Running -/

@[simp] theorem run_pure (a : α) (s : σ) : (pure a : Fallible σ α).run s = (.ok a, s) := rfl

theorem run_bind (x : Fallible σ α) (f : α → Fallible σ β) (s : σ) :
    (x >>= f).run s =
      match x.run s with
      | (.ok a, s') => (f a).run s'
      | (.error e, s') => (.error e, s') := rfl

@[simp] theorem run_fail (e : Error) (s : σ) : (fail e : Fallible σ α).run s = (.error e, s) := rfl

@[simp] theorem run_view (f : σ → α) (s : σ) : (view f).run s = (.ok (f s), s) := rfl

@[simp] theorem run_update (f : σ → σ) (s : σ) : (update f).run s = (.ok (), f s) := rfl

@[simp] theorem run_ofExcept (r : Except Error α) (s : σ) :
    (ofExcept r : Fallible σ α).run s = (r, s) := rfl

/-- A step that succeeds hands its value and state on. -/
theorem bind_of_ok {x : Fallible σ α} {f : α → Fallible σ β} {s s' : σ} {a : α}
    (h : x s = (.ok a, s')) : (x >>= f) s = f a s' := by
  have hrun := run_bind x f s
  rw [show x.run s = _ from h] at hrun
  exact hrun

/-- A step that fails ends the computation in the state it has come to. -/
theorem bind_of_error {x : Fallible σ α} {f : α → Fallible σ β} {s s' : σ} {e : Error}
    (h : x s = (.error e, s')) : (x >>= f) s = (.error e, s') := by
  have hrun := run_bind x f s
  rw [show x.run s = _ from h] at hrun
  exact hrun

theorem into_of_ok {x : Fallible σ α} {s s' : σ} {a : α} (h : x s = (.ok a, s')) (held : α) :
    x.into (held, s) = (.ok (), a, s') := by
  simp only [into, h]

theorem into_of_error {x : Fallible σ α} {s s' : σ} {e : Error} (h : x s = (.error e, s'))
    (held : α) : x.into (held, s) = (.error e, held, s') := by
  simp only [into, h]

instance : LawfulMonad (Fallible σ) := LawfulMonad.mk' (Fallible σ)
  (by
    intro α x
    funext s
    show (match x s with | (.ok a, s') => _ | (.error e, s') => _) = x s
    rcases x s with ⟨_ | _, _⟩ <;> rfl)
  (by intros; rfl)
  (by
    intro α β γ x f g
    funext s
    show (match (match x s with | (.ok a, s') => f a s' | (.error e, s') => (.error e, s')) with
      | (.ok b, s') => g b s' | (.error e, s') => (.error e, s')) =
      (match x s with | (.ok a, s') => _ | (.error e, s') => (.error e, s'))
    rcases x s with ⟨_ | _, _⟩ <;> rfl)

end Fallible

end GuestXml
