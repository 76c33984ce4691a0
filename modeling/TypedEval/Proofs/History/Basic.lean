import TypedEval.Call

/-!
# Evaluation with its history

`Code.watch` evaluates as `Code.eval` does and keeps two things beside the state. The **stack** holds
the names of the calls that are under way, innermost first; a raised cause takes it along as it is at
that place, and nothing is added to a cause on its way out. The **history** holds what happened, in
order: every activation that an operation left behind, every call with its arguments, every frame
that a body started in, every result, every recursive binding and every raised cause.

Laws about what is true all along a run, and not only at its end, are laws about its history. That
the watched evaluation is the plain one is proved beside the law of backtraces.
-/

namespace TypedEval

/-- **A moment of an evaluation.** -/
inductive Moment where
  /-- An operation has left the activation like this. -/
  | reached (a : Activation)
  /-- The recursive binding of a node's value to a slot was completed, in this activation. -/
  | tied (slot : Nat) (value : Node .function) (closureSlot : Nat) (a : Activation)
  /-- A function is called. -/
  | called (f : Function) (args : List Value) (store : Store)
  /-- The body of a called function starts in a frame. -/
  | entered (f : Function) (args : List Value) (frame : Frame) (store : Store)
  /-- A call has ended in a value. -/
  | returned (f : Function) (v : Value) (store : Store)
  /-- A cause was raised. -/
  | raised (cause : Cause)

/-- **A state with what happened so far.** -/
structure Recorded (σ : Type) where
  state : σ
  history : List Moment

/-- A raised cause takes the calls along that are under way. -/
def Halt.snapshot (stack : List String) : Halt → Halt
  | .fault (.raised cause) _ => .fault (.raised cause) stack
  | h => h

/-- What a halt adds to the history. -/
def Halt.moments : Halt → List Moment
  | .fault (.raised cause) _ => [.raised cause]
  | _ => []

namespace Recorded

variable {σ α : Type}

/-- **An operation under a stack of calls**: `seen` is what it leaves in the history. -/
def act (seen : σ → List Moment) (stack : List String) (m : Run σ α) : Run (Recorded σ) α := fun w =>
  match m w.state with
  | (.ok a, s) => (.ok a, ⟨s, w.history ++ seen s⟩)
  | (.error h, s) => (.error (h.snapshot stack), ⟨s, w.history ++ seen s ++ h.moments⟩)

/-- An operation in an activation, which is seen afterwards. -/
def step (stack : List String) (m : Run Activation α) : Run (Recorded Activation) α :=
  act (fun a => [.reached a]) stack m

/-- An operation outside of activations. It makes no closure. -/
def plain (stack : List String) (m : Run σ α) : Run (Recorded σ) α := act (fun _ => []) stack m

/-- Adds a moment. -/
def note (moment : σ → Moment) : Run (Recorded σ) Unit := fun w =>
  (.ok (), { w with history := w.history ++ [moment w.state] })

/-- Runs on the store of an activation. -/
def onStore (m : Run (Recorded Store) α) : Run (Recorded Activation) α :=
  Run.focus (fun w => ⟨w.state.store, w.history⟩)
    (fun w t => ⟨{ w.state with store := t.state }, t.history⟩) m

end Recorded

open Recorded

/-- **A way to call functions that keeps a history**, under a stack of calls. -/
abbrev Observer := List String → Function → List Value → Run (Recorded Store) Value

/-! ## Nodes -/

/-- Calls a function and checks the family of its result. -/
def watchChecked (call : Observer) (stack : List String) (f : Function) (args : List Value)
    (result : Ty) : Run (Recorded Activation) Value := do
  let v ← onStore (call stack f args)
  if v.family = result.family then return v
  else step stack (Run.fault (.assertion (.callResult f.text)))

mutual

/-- **Evaluates a node**, with its history. -/
def Node.watch (call : Observer) (stack : List String) :
    {family : Family} → Node family → Run (Recorded Activation) (Carrier family)
  | _, .bool b => pure b
  | _, .int n => pure n
  | _, .float x => pure x
  | _, .function f => pure f
  | _, .constant v => pure v
  | family, .read slot _ => step stack (Activation.readFrame (·.readAs family slot))
  | _, .not a => do return !(← a.watch call stack)
  | _, .logic op a b => do
    let x ← a.watch call stack
    match op.decided? x with
    | some r => return r
    | none => return op.apply x (← b.watch call stack)
  | _, .compareInt op a b => do
    let x ← a.watch call stack
    let y ← b.watch call stack
    return op.applyInt x y
  | _, .compareFloat op a b => do
    let x ← a.watch call stack
    let y ← b.watch call stack
    return op.applyFloat x y
  | _, .negateInt a => do
    let x ← a.watch call stack
    step stack (Run.check (TypedEval.negateInt x))
  | _, .arithInt op a b => do
    let x ← a.watch call stack
    let y ← b.watch call stack
    step stack (Run.check (op.apply x y))
  | _, .negateFloat a => do return -(← a.watch call stack)
  | _, .arithFloat op a b => do
    let x ← a.watch call stack
    let y ← b.watch call stack
    return op.apply x y
  | _, .cond test a b => do
    if ← test.watch call stack then a.watch call stack else b.watch call stack
  | _, .block bindings body => do
    bindings.watch call stack
    body.watch call stack
  | family, .call callee args result => do
    let f ← callee.watch call stack
    let values ← args.watch call stack
    let v ← watchChecked call stack f values result
    step stack (Run.check (family.unbox v))
  | family, .index seq i _ => do
    let value ← seq.watch call stack
    let view ← step stack (Run.check value.expectView)
    let i ← i.watch call stack
    step stack (Run.check (view.getAs family i))
  | _, .slice seq slicer => do
    let value ← seq.watch call stack
    let view ← step stack (Run.check value.expectView)
    let value ← slicer.watch call stack
    let range ← step stack (Run.check value.expectRange)
    let range ← step stack (Run.check range.expectInt)
    return .slice (← step stack (Run.check (view.slice range)))
  | _, .array element items => do
    let builder ← items.watchFill call stack (.new element)
    let id ← step stack (Activation.onStore Store.newStorage)
    return .array (builder.finish id)
  | _, .intRange first last step => do
    let first ← first.watch call stack
    let last ← last.watch call stack
    let step ← step.watch call stack
    return .range (.int (← Recorded.step stack (Run.check (IntRange.make first last step))))
  | _, .floatRange first last step => do
    let first ← first.watch call stack
    let last ← last.watch call stack
    let step ← step.watch call stack
    return .range (.float (← Recorded.step stack (Run.check (FloatRange.make first last step))))
  | _, .define target capture => step stack (instantiate target capture)

/-- Evaluates nodes in order, with their history. -/
def Nodes.watch (call : Observer) (stack : List String) :
    Nodes → Run (Recorded Activation) (List Value)
  | .nil => pure []
  | .cons family n ns => do
    let x ← n.watch call stack
    let rest ← ns.watch call stack
    return family.box x :: rest

/-- Evaluates the elements of an array into a builder, with their history. -/
def Nodes.watchFill (call : Observer) (stack : List String) :
    Nodes → Builder → Run (Recorded Activation) Builder
  | .nil, b => pure b
  | .cons family n ns, b => do
    let x ← n.watch call stack
    let b ← step stack (Run.check (b.pushAs family x))
    ns.watchFill call stack b

/-- Evaluates a part of a range if it is there, with its history. -/
def Part.watch (call : Observer) (stack : List String) :
    {family : Family} → Part family → Run (Recorded Activation) (Option (Carrier family))
  | _, .none => pure none
  | _, .some n => do return some (← n.watch call stack)

/-- Executes bindings in order, with their history. -/
def Bindings.watch (call : Observer) (stack : List String) :
    Bindings → Run (Recorded Activation) Unit
  | .nil => pure ()
  | .bind family slot n rest => do
    let x ← n.watch call stack
    step stack (Activation.updateFrame (·.writeAs slot family x))
    rest.watch call stack
  | .bindRec slot n closureSlot rest => do
    let f ← n.watch call stack
    step stack (Activation.updateFrame (·.writeFunction slot f))
    step stack (tieKnot slot closureSlot)
    note (.tied slot n closureSlot)
    rest.watch call stack

end

/-- Evaluates a node of any family and boxes the result, with its history. -/
def AnyNode.watch (call : Observer) (stack : List String) (n : AnyNode) :
    Run (Recorded Activation) Value := do
  return n.family.box (← n.node.watch call stack)

/-! ## Calls -/

/-- Runs a script of the host, with its history. -/
def Script.watch {α : Type} (call : Observer) (stack : List String) :
    Script α → Run (Recorded Store) α
  | .done a => pure a
  | .fail f => plain stack (Run.fault f)
  | .newStorage next => do
    let id ← plain stack Store.newStorage
    (next id).watch call stack
  | .resolve f next => do
    let _ ← plain stack (Run.read fun (s : Store) => f.closureIn s)
    next.watch call stack
  | .call f args next => do
    let v ← call stack f args
    (next v).watch call stack

/-- Runs the body of a function in a fresh frame, with its history. -/
def Body.watch (b : Body) (call : Observer) (stack : List String) (f : Function)
    (closure : Option (Nat × Frame)) (args : List Value) : Run (Recorded Store) Value := fun w =>
  match plain stack (b.enter closure args) ⟨.allocate b.frame, w.history⟩ with
  | (.error h, t) => (.error h, ⟨w.state, t.history⟩)
  | (.ok (), t) =>
    let start := ⟨⟨t.state, w.state⟩, t.history ++ [.entered f args t.state w.state]⟩
    match b.node.watch call stack start with
    | (r, u) => (r, ⟨u.state.store, u.history⟩)

/-- Runs the code of a function, with its history. -/
def Routine.watch (r : Routine) (call : Observer) (stack : List String) (f : Function)
    (closure : Option (Nat × Frame)) (args : List Value) : Run (Recorded Store) Value :=
  match r with
  | .user body => body.watch call stack f closure args
  | .native script =>
    match closure with
    | some _ => plain stack (Run.fault (.defect (.builtinClosure f.displayName)))
    | none => (script args).watch call stack

/-- Runs the code that a function stands for, with its history. -/
def Code.watchEnter (code : Code) (call : Observer) (stack : List String) (f : Function)
    (args : List Value) : Run (Recorded Store) Value := do
  let closure ← plain stack (Run.read fun (s : Store) => f.closureIn s)
  match code.routine? f.target with
  | none => plain stack (Run.fault (.defect (.lostCode f.displayName)))
  | some routine => routine.watch call stack f closure args

/-- **Calls a function with its history.** The name of the function is on the stack as long as its
code runs. -/
def Code.observe (code : Code) : (depth : Nat) → Observer
  | 0, _, _, _ => Run.halt .exhausted
  | depth + 1, stack, f, args => do
    note (.called f args)
    let v ← code.watchEnter (code.observe depth) (f.displayName :: stack) f args
    note (.returned f v)
    return v

/-- **Evaluates a node of any family with its history**, where no call is under way. -/
def Code.watch (code : Code) (depth : Nat) (n : AnyNode) : Run (Recorded Activation) Value :=
  n.watch (code.observe depth) []

end TypedEval
