import TypedEval.Call

/-!
# Evaluation on boxed values

A second evaluator, in which every node of every family hands over a boxed value and nothing is kept
unboxed between two operations: slots are read and written as values, an element is taken boxed and
unboxed afterwards, arrays are built from values, and each operator unboxes its operands itself.
Operators, ranges, slices, captures and the checks of calls are those of `Node.eval`.

It has one way to do each thing where `Node.eval` has one for each family. That both end alike is the
law of the modules beside this one.
-/

namespace TypedEval

/-! ## The recursive knot -/

/-- The closure of the function in a slot, made if it has none yet. -/
def ensureClosureBoxed (slot : Nat) (f : Function) : Run Activation (Nat × Function) := do
  match ← (Run.read fun (a : Activation) => f.closureIn a.store) with
  | some (id, _) => return (id, f)
  | none =>
    match f.target.closure with
    | none =>
      let s ← Activation.readFrame fun frame => frame.slot slot
      Run.fault (.defect (.recursiveBuiltin s.name))
    | some layout =>
      let id ← Activation.onStore fun s =>
        match s.addClosure (.allocate layout) with
        | (id, s) => (.ok id, s)
      let f := f.withClosure id
      Activation.updateFrame (·.writeValue slot (.function f))
      return (id, f)

/-- Writes a function into its own closure. -/
def writeSelfBoxed (id : Nat) (closureSlot : Nat) (f : Function) : Run Store Unit :=
  Run.update fun s =>
    match s.closures[id]? with
    | none => .error (.defect (.lostClosure f.displayName))
    | some frame =>
      return s.setClosure id (← frame.writeValue closureSlot (.function f.selfReference))

/-- Ties the knot of a recursive binding. -/
def tieKnotBoxed (slot closureSlot : Nat) : Run Activation Unit := do
  let v ← Activation.readFrame (·.readValue slot)
  let f ← Run.check v.expectFunction
  let (id, f) ← ensureClosureBoxed slot f
  Activation.onStore (writeSelfBoxed id closureSlot f)

/-! ## Nodes -/

mutual

/-- **Evaluates a node to a boxed value.** -/
def Node.evalBoxed (call : Caller) : {family : Family} → Node family → Run Activation Value
  | _, .bool b => pure (.bool b)
  | _, .int n => pure (.int n)
  | _, .float x => pure (.float x)
  | _, .function f => pure (.function f)
  | _, .constant v => pure v
  | _, .read slot _ => Activation.readFrame (·.readValue slot)
  | _, .not a => do
    let v ← a.evalBoxed call
    let x ← Run.check v.expectBool
    return .bool (!x)
  | _, .logic op a b => do
    let v ← a.evalBoxed call
    let x ← Run.check v.expectBool
    match op.decided? x with
    | some r => return .bool r
    | none =>
      let w ← b.evalBoxed call
      let y ← Run.check w.expectBool
      return .bool (op.apply x y)
  | _, .compareInt op a b => do
    let v ← a.evalBoxed call
    let x ← Run.check v.expectInt
    let w ← b.evalBoxed call
    let y ← Run.check w.expectInt
    return .bool (op.applyInt x y)
  | _, .compareFloat op a b => do
    let v ← a.evalBoxed call
    let x ← Run.check v.expectFloat
    let w ← b.evalBoxed call
    let y ← Run.check w.expectFloat
    return .bool (op.applyFloat x y)
  | _, .negateInt a => do
    let v ← a.evalBoxed call
    let x ← Run.check v.expectInt
    return .int (← Run.check (TypedEval.negateInt x))
  | _, .arithInt op a b => do
    let v ← a.evalBoxed call
    let x ← Run.check v.expectInt
    let w ← b.evalBoxed call
    let y ← Run.check w.expectInt
    return .int (← Run.check (op.apply x y))
  | _, .negateFloat a => do
    let v ← a.evalBoxed call
    let x ← Run.check v.expectFloat
    return .float (-x)
  | _, .arithFloat op a b => do
    let v ← a.evalBoxed call
    let x ← Run.check v.expectFloat
    let w ← b.evalBoxed call
    let y ← Run.check w.expectFloat
    return .float (op.apply x y)
  | _, .cond test a b => do
    let v ← test.evalBoxed call
    let x ← Run.check v.expectBool
    if x then a.evalBoxed call else b.evalBoxed call
  | _, .block bindings body => do
    bindings.executeBoxed call
    body.evalBoxed call
  | _, .call callee args result => do
    let v ← callee.evalBoxed call
    let f ← Run.check v.expectFunction
    let values ← args.evalBoxed call
    callChecked call f values result
  | family, .index seq i _ => do
    let value ← seq.evalBoxed call
    let view ← Run.check value.expectView
    let v ← i.evalBoxed call
    let k ← Run.check v.expectInt
    let element ← Run.check (view.get k)
    return family.box (← Run.check (family.unbox element))
  | _, .slice seq slicer => do
    let value ← seq.evalBoxed call
    let view ← Run.check value.expectView
    let value ← slicer.evalBoxed call
    let range ← Run.check value.expectRange
    let range ← Run.check range.expectInt
    return .slice (← Run.check (view.slice range))
  | _, .array element items => do
    let builder ← items.fillBoxed call (.new element)
    let id ← Activation.onStore Store.newStorage
    return .array (builder.finish id)
  | _, .intRange first last step => do
    let first ← first.evalBoxed call
    let last ← last.evalBoxed call
    let step ← step.evalBoxed call
    return .range (.int (← Run.check (IntRange.make first last step)))
  | _, .floatRange first last step => do
    let first ← first.evalBoxed call
    let last ← last.evalBoxed call
    let step ← step.evalBoxed call
    return .range (.float (← Run.check (FloatRange.make first last step)))
  | _, .define target capture => do return .function (← instantiate target capture)

/-- Evaluates nodes in order. -/
def Nodes.evalBoxed (call : Caller) : Nodes → Run Activation (List Value)
  | .nil => pure []
  | .cons _ n ns => do
    let v ← n.evalBoxed call
    let rest ← ns.evalBoxed call
    return v :: rest

/-- Evaluates the elements of an array into a builder, all of them boxed. -/
def Nodes.fillBoxed (call : Caller) : Nodes → Builder → Run Activation Builder
  | .nil, b => pure b
  | .cons _ n ns, b => do
    let v ← n.evalBoxed call
    let b ← Run.check (b.push v)
    ns.fillBoxed call b

/-- Evaluates a part of a range if it is there, and unboxes it for the range. -/
def Part.evalBoxed (call : Caller) : {family : Family} → Part family →
    Run Activation (Option (Carrier family))
  | _, .none => pure none
  | family, .some n => do
    let v ← n.evalBoxed call
    return some (← Run.check (family.unbox v))

/-- Executes bindings in order. -/
def Bindings.executeBoxed (call : Caller) : Bindings → Run Activation Unit
  | .nil => pure ()
  | .bind _ slot n rest => do
    let v ← n.evalBoxed call
    Activation.updateFrame (·.writeValue slot v)
    rest.executeBoxed call
  | .bindRec slot n closureSlot rest => do
    let v ← n.evalBoxed call
    Activation.updateFrame (·.writeValue slot v)
    tieKnotBoxed slot closureSlot
    rest.executeBoxed call

end

/-! ## Calls -/

/-- Takes one slot out of a closure into a call frame. -/
def discloseSlotBoxed (id : Nat) (closure : Frame) (t : Transfer) (frame : Frame) :
    Except Fault Frame := do
  let frame ← Frame.copySlot closure t frame
  let s ← frame.slot t.target
  if s.cell.isDefined && s.ty.isFunction then
    let f ← (← frame.readValue t.target).expectFunction
    if f.isSelfReference then frame.writeValue t.target (.function (f.withClosure id))
    else return frame
  else return frame

/-- Takes slots out of a closure, in order. -/
def discloseSlotsBoxed (id : Nat) (closure : Frame) : List Transfer → Run Frame Unit
  | [] => pure ()
  | t :: ts => do
    Run.update (discloseSlotBoxed id closure t)
    discloseSlotsBoxed id closure ts

/-- Disclosure at a call. -/
def discloseBoxed (transfers : List Transfer) (closure : Option (Nat × Frame)) : Run Frame Unit :=
  match closure with
  | none =>
    if transfers.isEmpty then pure ()
    else Run.fault (.defect (.missingClosure transfers.length))
  | some (id, frame) =>
    if transfers.isEmpty then Run.fault (.defect .needlessClosure)
    else discloseSlotsBoxed id frame transfers

namespace Body

/-- Prepares the frame of a call. -/
def enterBoxed (b : Body) (closure : Option (Nat × Frame)) (args : List Value) : Run Frame Unit := do
  discloseBoxed b.disclosure closure
  if args.length ≠ b.params.length then
    Run.fault (.defect (.argumentCount args.length b.params.length))
  writeParams b.params args

/-- Runs a body in a fresh frame, on boxed values. -/
def runBoxed (b : Body) (call : Caller) (closure : Option (Nat × Frame)) (args : List Value) :
    Run Store Value := fun s =>
  match b.enterBoxed closure args (.allocate b.frame) with
  | (.error h, _) => (.error h, s)
  | (.ok (), frame) =>
    match b.node.node.evalBoxed call ⟨frame, s⟩ with
    | (r, a) => (r, a.store)

end Body

/-- Runs the code of a function, on boxed values. -/
def Routine.runBoxed (r : Routine) (call : Caller) (name : String)
    (closure : Option (Nat × Frame)) (args : List Value) : Run Store Value :=
  match r with
  | .user body => body.runBoxed call closure args
  | .native script =>
    match closure with
    | some _ => Run.fault (.defect (.builtinClosure name))
    | none => (script args).run call

/-- Runs the code that a function stands for, with its closure, on boxed values. -/
def Code.enterBoxed (code : Code) (call : Caller) (f : Function) (args : List Value) :
    Run Store Value := do
  let closure ← Run.read fun (s : Store) => f.closureIn s
  match code.routine? f.target with
  | none => Run.fault (.defect (.lostCode f.displayName))
  | some routine => routine.runBoxed call f.displayName closure args

/-- Calls a function on boxed values, nesting calls at most `depth` deep. -/
def Code.callBoxed (code : Code) : (depth : Nat) → Caller
  | 0, _, _ => Run.halt .exhausted
  | depth + 1, f, args =>
    (code.enterBoxed (code.callBoxed depth) f args).mapHalt (Halt.within f.displayName)

/-- **Evaluates a node of any family to a boxed value**, on boxed values throughout. -/
def Code.evalBoxed (code : Code) (depth : Nat) (n : AnyNode) : Run Activation Value :=
  n.node.evalBoxed (code.callBoxed depth)

end TypedEval
