import TypedEval.Closure

/-!
# Scripts of the host

A builtin is written as a script: it computes, asks for the identity of a new storage, finds the
closures of functions that it was given and calls them, and ends in a value or a fault.

The form restricts what a host function can do. It never sees inside a closure, and changes closures
only by calling functions. The faults that it raises itself have left no call yet. A call that halts
ends the script with it, so no host function goes on after a failure of a callback. Each path through
a script is finite: whatever its calls return, it ends after finitely many of them.
-/

namespace TypedEval

/-- **What a host function does**, step by step. -/
inductive Script (α : Type) : Type where
  | done (a : α)
  | fail (f : Fault)
  /-- Takes the number of a new storage. -/
  | newStorage (next : Nat → Script α)
  /-- Finds the closure of a function, which ends the script where there is none to be found. -/
  | resolve (f : Function) (next : Script α)
  /-- Calls a function and goes on with its result. -/
  | call (f : Function) (args : List Value) (next : Value → Script α)

namespace Script

variable {α β : Type}

/-- Goes on with the value of a script. -/
def bind : Script α → (α → Script β) → Script β
  | .done a, k => k a
  | .fail f, _ => .fail f
  | .newStorage next, k => .newStorage fun id => (next id).bind k
  | .resolve f next, k => .resolve f (next.bind k)
  | .call f args next, k => .call f args fun v => (next v).bind k

instance : Monad Script where
  pure := done
  bind := bind

/-- The result of a check. -/
def check : Except Fault α → Script α
  | .ok a => .done a
  | .error f => .fail f

instance : MonadLift (Except Fault) Script where
  monadLift := check

instance : MonadLift (Except Cause) Script where
  monadLift x := check (x.mapError .raised)

instance : MonadLift (Except Defect) Script where
  monadLift x := check (x.mapError .defect)

/-- Raises a cause. -/
def raise (cause : Cause) : Script α := .fail (.raised cause)

/-- Fixes the closure of a function that is about to be called, before anything else is computed. -/
def callSite (f : Function) : Script Unit := .resolve f (.done ())

/-- The result of calling a function. -/
def callFunction (f : Function) (args : List Value) : Script Value := .call f args .done

/-- The finished array of a builder. -/
def finish (b : Builder) : Script Value := .newStorage fun id => .done (.array (b.finish id))

/-- **Runs a script** over a store, with a way to call functions. -/
def run (call : Function → List Value → Run Store Value) : Script α → Run Store α
  | .done a => pure a
  | .fail f => Run.fault f
  | .newStorage next => do
    let id ← Store.newStorage
    (next id).run call
  | .resolve f next => do
    let _ ← Run.read fun (s : Store) => f.closureIn s
    next.run call
  | .call f args next => do
    let v ← call f args
    (next v).run call

section

variable {f : Function} {s : Store} {next : Script α}

/-- Where the closure is there, the script goes on from the same store. -/
theorem run_resolve_ok (call : Function → List Value → Run Store Value)
    {closure : Option (Nat × Frame)} (h : f.closureIn s = .ok closure) :
    (resolve f next).run call s = next.run call s :=
  Run.bind_ok (a := closure) (by simp [Run.read, Run.check, h])

/-- Where it is not, that is all that happens. -/
theorem run_resolve_error (call : Function → List Value → Run Store Value) {d : Defect}
    (h : f.closureIn s = .error d) :
    (resolve f next).run call s = (.error (.fault (.defect d) []), s) :=
  Run.bind_halt (by simp [Run.read, Run.check, h])

end

/-- Running a script in two parts runs one after the other. -/
theorem run_bind (call : Function → List Value → Run Store Value) (m : Script α)
    (k : α → Script β) : (m >>= k).run call = m.run call >>= fun a => (k a).run call := by
  show (m.bind k).run call = _
  induction m with
  | done a => rfl
  | fail f => rfl
  | newStorage next ih => simp only [bind, run, bind_assoc, ih]
  | resolve f next ih => simp only [bind, run, bind_assoc, ih]
  | call f args next ih => simp only [bind, run, bind_assoc, ih]

end Script

/-- **The code of a host function.** -/
abbrev Native := List Value → Script Value

/-- The argument at a position, which a host function reads without counting its arguments. -/
def argument (args : List Value) (i : Nat) : Except Fault Value :=
  match args[i]? with
  | some v => .ok v
  | none => .error (.crash (.missingArgument i))

end TypedEval
