import TypedEval.Fault

/-!
# Runs

A run reads and changes a state and ends in a value or in a halt. Its state is there at the end in
both cases: what a run changed before it halted stays changed.
-/

namespace TypedEval

/-- **A computation over a state** that may halt. -/
def Run (σ α : Type) : Type := σ → Except Halt α × σ

namespace Run

variable {σ τ α β : Type}

/-- Ends in a value at once. -/
@[inline] def pure (a : α) : Run σ α := fun s => (.ok a, s)

/-- Goes on with the value of a run, in the state that it leaves. -/
@[inline] def bind (m : Run σ α) (f : α → Run σ β) : Run σ β := fun s =>
  match m s with
  | (.ok a, s) => f a s
  | (.error h, s) => (.error h, s)

instance : Monad (Run σ) where
  pure := pure
  bind := bind

/-- Halts. -/
@[inline] def halt (h : Halt) : Run σ α := fun s => (.error h, s)

/-- Halts with a fault that has left no call yet. -/
@[inline] def fault (f : Fault) : Run σ α := halt (.fault f [])

/-- The result of a check, which leaves the state alone. -/
@[inline] def check (x : Except Fault α) : Run σ α := fun s =>
  match x with
  | .ok a => (.ok a, s)
  | .error f => (.error (.fault f []), s)

instance : MonadLift (Except Fault) (Run σ) where
  monadLift := check

/-- What the state says. -/
@[inline] def read (f : σ → Except Fault α) : Run σ α := fun s => check (f s) s

/-- Replaces the state, unless a check fails. -/
@[inline] def update (f : σ → Except Fault σ) : Run σ Unit := fun s =>
  match f s with
  | .ok t => (.ok (), t)
  | .error e => (.error (.fault e []), s)

/-- Runs on a part of the state. -/
@[inline] def focus (get : σ → τ) (set : σ → τ → σ) (m : Run τ α) : Run σ α := fun s =>
  match m (get s) with
  | (r, t) => (r, set s t)

/-- Changes how a run halts. -/
@[inline] def mapHalt (f : Halt → Halt) (m : Run σ α) : Run σ α := fun s =>
  match m s with
  | (.ok a, s) => (.ok a, s)
  | (.error h, s) => (.error (f h), s)

/-! ## Laws -/

@[simp] theorem pure_run (a : α) (s : σ) : (Pure.pure a : Run σ α) s = (.ok a, s) := rfl

/-- After a run that ended in a value, the rest goes on from there. -/
theorem bind_ok {m : Run σ α} {f : α → Run σ β} {s t : σ} {a : α} (h : m s = (.ok a, t)) :
    (m >>= f) s = f a t := by
  show bind m f s = f a t
  simp [bind, h]

/-- After a run that halted, the rest is not reached. -/
theorem bind_halt {m : Run σ α} {f : α → Run σ β} {s t : σ} {e : Halt}
    (h : m s = (.error e, t)) : (m >>= f) s = (.error e, t) := by
  show bind m f s = (.error e, t)
  simp [bind, h]

instance : LawfulMonad (Run σ) :=
  LawfulMonad.mk' (Run σ)
    (fun m => by
      funext s
      show bind m (fun a => pure (id a)) s = m s
      unfold bind
      split <;> simp_all [pure])
    (fun _ _ => rfl)
    (fun m f g => by
      funext s
      show bind (bind m f) g s = bind m (fun a => bind (f a) g) s
      unfold bind
      cases m s with
      | mk r t => cases r <;> rfl)

end Run

end TypedEval
