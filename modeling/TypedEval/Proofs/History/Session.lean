import TypedEval.Program
import TypedEval.Proofs.History.Backtrace

/-!
# Sessions

A host uses an evaluator step by step. It loads code, makes frames, evaluates trees in them, and calls
functions that it got hold of; all of its steps share one store. A **session** is such a use. What the
host does next may depend on everything that came back to it, and a step that halts ends only itself.

A session has one history for all its steps. `Session.watch` keeps it and comes to the same frame and
store as the plain session (`Session.watch_eq_run`).
-/

namespace TypedEval

/-- **What a host does with an evaluator**, step by step. -/
inductive Session : Type where
  /-- The host is done. -/
  | done
  /-- Adds code to the table. -/
  | load (routine : Routine) (next : Session)
  /-- Goes on in another frame. -/
  | enter (frame : Frame) (next : Session)
  /-- Evaluates a tree in the frame, and goes on with what came back and with the frame. -/
  | evaluate (depth : Nat) (n : AnyNode) (next : Except Halt Value → Frame → Session)
  /-- Calls a function, and goes on with what came back. -/
  | call (depth : Nat) (f : Function) (args : List Value) (next : Except Halt Value → Session)

namespace Session

/-- **What a step of the evaluator came to**, and the frame and store that it left. -/
structure Outcome where
  result : Except Halt Value
  state : Activation

/-- **What a session came to**: the code that it has loaded, the frame and store that it left, and the
outcomes of its evaluations and calls. -/
structure Ending where
  code : Code
  state : Activation
  outcomes : List Outcome

/-- The ending of a session that had an outcome first. -/
def Ending.after (o : Outcome) (e : Ending) : Ending := { e with outcomes := o :: e.outcomes }

/-- **Runs a session.** -/
def run : Session → Code → Activation → Ending
  | .done, code, a => ⟨code, a, []⟩
  | .load routine next, code, a => next.run (code.add routine) a
  | .enter frame next, code, a => next.run code { a with frame }
  | .evaluate depth n next, code, a =>
    match code.eval depth n a with
    | (r, b) => ((next r b.frame).run code b).after ⟨r, b⟩
  | .call depth f args next, code, a =>
    match Activation.onStore (code.call depth f args) a with
    | (r, b) => ((next r).run code b).after ⟨r, b⟩

/-- Runs a session with its history. -/
def watch : Session → Code → Recorded Activation → Recorded Activation
  | .done, _, w => w
  | .load routine next, code, w => next.watch (code.add routine) w
  | .enter frame next, code, w => next.watch code { w with state := { w.state with frame } }
  | .evaluate depth n next, code, w =>
    match code.watch depth n w with
    | (r, u) => (next r u.state.frame).watch code u
  | .call depth f args next, code, w =>
    match Recorded.onStore (code.observe depth [] f args) w with
    | (r, u) => (next r).watch code u

/-- **Executes a program**, in a fresh frame. -/
def execute (depth : Nat) (p : Program) (next : Except Halt Value → Session) : Session :=
  .enter (.allocate p.layout) (.evaluate depth p.body fun r _ => next r)

/-- **The watched session is the plain one**, and only adds to the history. -/
theorem watch_eq_run (m : Session) (code : Code) (a : Activation) (earlier : List Moment) :
    ∃ history, m.watch code ⟨a, earlier⟩ = ⟨(m.run code a).state, earlier ++ history⟩ := by
  induction m generalizing code a earlier with
  | done => exact ⟨[], by rw [List.append_nil]; rfl⟩
  | load routine next ih => exact ih (code.add routine) a earlier
  | enter frame next ih => exact ih code { a with frame } earlier
  | evaluate depth n next ih =>
    obtain ⟨first, hwatch, -⟩ := code.watch_eq_eval depth n a earlier
    obtain ⟨rest, hrest⟩ := ih (code.eval depth n a).1 (code.eval depth n a).2.frame code
      (code.eval depth n a).2 (earlier ++ first)
    refine ⟨first ++ rest, ?_⟩
    rw [watch, hwatch, ← List.append_assoc]
    exact hrest
  | call depth f args next ih =>
    obtain ⟨first, hwatch, -⟩ := code.onStore_observe_eq_call depth f args a earlier
    obtain ⟨rest, hrest⟩ := ih (Activation.onStore (code.call depth f args) a).1 code
      (Activation.onStore (code.call depth f args) a).2 (earlier ++ first)
    refine ⟨first ++ rest, ?_⟩
    rw [watch, hwatch, ← List.append_assoc]
    exact hrest

end Session

end TypedEval
