import TypedEval.Code

/-!
# Calls

A call of a guest function makes a fresh frame, takes the captured slots out of the closure, writes
the arguments to the parameter slots and evaluates the body. A call of a host function runs its
script, which may call functions in turn. A cause that leaves a call records the name of the function
that was called.

Calls nest at most as deep as the depth they are given; a run that goes deeper ends as exhausted.
More depth never changes a run that has ended otherwise.
-/

namespace TypedEval

/-- Writes arguments to parameter slots, in order. -/
def writeParams : List Nat → List Value → Run Frame Unit
  | slot :: slots, v :: vs => do
    Run.update (·.writeValue slot v)
    writeParams slots vs
  | _, _ => pure ()

namespace Body

/-- **Prepares the frame of a call**: disclosure first, then the number of arguments, then the
parameters. -/
def enter (b : Body) (closure : Option (Nat × Frame)) (args : List Value) : Run Frame Unit := do
  disclose b.disclosure closure
  if args.length ≠ b.params.length then
    Run.fault (.defect (.argumentCount args.length b.params.length))
  writeParams b.params args

/-- Runs a body in a fresh frame. The frame ends with the call; the store remains. -/
def run (b : Body) (call : Caller) (closure : Option (Nat × Frame)) (args : List Value) :
    Run Store Value := fun s =>
  match b.enter closure args (.allocate b.frame) with
  | (.error h, _) => (.error h, s)
  | (.ok (), frame) =>
    match b.node.eval call ⟨frame, s⟩ with
    | (r, a) => (r, a.store)

end Body

/-- Runs the code of a function. A host function has no closure. -/
def Routine.run (r : Routine) (call : Caller) (name : String) (closure : Option (Nat × Frame))
    (args : List Value) : Run Store Value :=
  match r with
  | .user body => body.run call closure args
  | .native script =>
    match closure with
    | some _ => Run.fault (.defect (.builtinClosure name))
    | none => (script args).run call

/-- Runs the code that a function stands for, with its closure. -/
def Code.enter (code : Code) (call : Caller) (f : Function) (args : List Value) :
    Run Store Value := do
  let closure ← Run.read fun (s : Store) => f.closureIn s
  match code.routine? f.target with
  | none => Run.fault (.defect (.lostCode f.displayName))
  | some routine => routine.run call f.displayName closure args

/-- **Calls a function**, nesting calls at most `depth` deep. -/
def Code.call (code : Code) : (depth : Nat) → Caller
  | 0, _, _ => Run.halt .exhausted
  | depth + 1, f, args =>
    (code.enter (code.call depth) f args).mapHalt (Halt.within f.displayName)

/-- **Evaluates a node of any family** in an activation, over a code table. -/
def Code.eval (code : Code) (depth : Nat) (n : AnyNode) : Run Activation Value :=
  n.eval (code.call depth)

end TypedEval
