import TypedEval.Node.Basic

/-!
# Evaluation

A node is evaluated in an activation, which its bindings write to, and hands over what its family
carries. Operands are evaluated left to right, and a call evaluates its callee before its arguments.

Evaluation recurses over the tree alone. How a function is called is a parameter: the code of the
callee belongs to the code table, and the depth of calls is bounded there.
-/

namespace TypedEval

/-- **A way to call functions.** -/
abbrev Caller := Function → List Value → Run Store Value

/-- Calls a function and checks that the result is of the family that its type promises. -/
def callChecked (call : Caller) (f : Function) (args : List Value) (result : Ty) :
    Run Activation Value := do
  let v ← Activation.onStore (call f args)
  if v.family = result.family then return v else Run.fault (.assertion (.callResult f.text))

/-- The function value of a definition evaluated in a frame. -/
def instantiate (target : Target) (capture : Capture) : Run Activation Function := fun a =>
  match capture.take a.frame a.store with
  | (.ok closure, store) => (.ok ⟨target, closure.map .shared⟩, { a with store })
  | (.error h, store) => (.error h, { a with store })

mutual

/-- **Evaluates a node.** -/
def Node.eval (call : Caller) : {family : Family} → Node family → Run Activation (Carrier family)
  | _, .bool b => pure b
  | _, .int n => pure n
  | _, .float x => pure x
  | _, .function f => pure f
  | _, .constant v => pure v
  | family, .read slot _ => Activation.readFrame (·.readAs family slot)
  | _, .not a => do return !(← a.eval call)
  | _, .logic op a b => do
    let x ← a.eval call
    match op.decided? x with
    | some r => return r
    | none => return op.apply x (← b.eval call)
  | _, .compareInt op a b => do
    let x ← a.eval call
    let y ← b.eval call
    return op.applyInt x y
  | _, .compareFloat op a b => do
    let x ← a.eval call
    let y ← b.eval call
    return op.applyFloat x y
  | _, .negateInt a => do
    let x ← a.eval call
    Run.check (negateInt x)
  | _, .arithInt op a b => do
    let x ← a.eval call
    let y ← b.eval call
    Run.check (op.apply x y)
  | _, .negateFloat a => do return -(← a.eval call)
  | _, .arithFloat op a b => do
    let x ← a.eval call
    let y ← b.eval call
    return op.apply x y
  | _, .cond test a b => do
    if ← test.eval call then a.eval call else b.eval call
  | _, .block bindings body => do
    bindings.execute call
    body.eval call
  | family, .call callee args result => do
    let f ← callee.eval call
    let values ← args.eval call
    let v ← callChecked call f values result
    Run.check (family.unbox v)
  | family, .index seq i _ => do
    let value ← seq.eval call
    let view ← Run.check value.expectView
    let i ← i.eval call
    Run.check (view.getAs family i)
  | _, .slice seq slicer => do
    let value ← seq.eval call
    let view ← Run.check value.expectView
    let value ← slicer.eval call
    let range ← Run.check value.expectRange
    let range ← Run.check range.expectInt
    return .slice (← Run.check (view.slice range))
  | _, .array element items => do
    let builder ← items.fill call (.new element)
    let id ← Activation.onStore Store.newStorage
    return .array (builder.finish id)
  | _, .intRange first last step => do
    let first ← first.eval call
    let last ← last.eval call
    let step ← step.eval call
    return .range (.int (← Run.check (IntRange.make first last step)))
  | _, .floatRange first last step => do
    let first ← first.eval call
    let last ← last.eval call
    let step ← step.eval call
    return .range (.float (← Run.check (FloatRange.make first last step)))
  | _, .define target capture => instantiate target capture

/-- Evaluates nodes in order and boxes the results. -/
def Nodes.eval (call : Caller) : Nodes → Run Activation (List Value)
  | .nil => pure []
  | .cons family n ns => do
    let x ← n.eval call
    let rest ← ns.eval call
    return family.box x :: rest

/-- Evaluates the elements of an array into a builder, primitives unboxed. -/
def Nodes.fill (call : Caller) : Nodes → Builder → Run Activation Builder
  | .nil, b => pure b
  | .cons family n ns, b => do
    let x ← n.eval call
    let b ← Run.check (b.pushAs family x)
    ns.fill call b

/-- Evaluates a part of a range if it is there. -/
def Part.eval (call : Caller) : {family : Family} → Part family →
    Run Activation (Option (Carrier family))
  | _, .none => pure none
  | _, .some n => do return some (← n.eval call)

/-- Executes bindings in order. A value that is not reached is not written. -/
def Bindings.execute (call : Caller) : Bindings → Run Activation Unit
  | .nil => pure ()
  | .bind family slot n rest => do
    let x ← n.eval call
    Activation.updateFrame (·.writeAs slot family x)
    rest.execute call
  | .bindRec slot n closureSlot rest => do
    let f ← n.eval call
    Activation.updateFrame (·.writeFunction slot f)
    tieKnot slot closureSlot
    rest.execute call

end

/-- **Evaluates a node of any family** and boxes the result. -/
def AnyNode.eval (call : Caller) (n : AnyNode) : Run Activation Value := do
  return n.family.box (← n.node.eval call)

end TypedEval
