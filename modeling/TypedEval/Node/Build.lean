import TypedEval.Node.Basic

/-!
# Building nodes

Nodes are built bottom up over the layout of the frame they will run in. Each constructor with a
condition on types checks it and reports a defect if it does not hold; the others build freely. A
tree that was built this way reads only slots of the layout, in their families, and calls functions
with arguments of their parameter types.
-/

namespace TypedEval

/-- The only type of a primitive family. -/
def Family.ownType? : Family → Option Ty
  | .bool => some .bool
  | .int => some .int
  | .float => some .float
  | .function | .reference => none

namespace Build

/-- A constant array, slice or range. -/
def constant (v : Value) : Except Defect (Node .reference) :=
  match v.family with
  | .reference => .ok (.constant v)
  | _ => .error (.referenceConstant v.kind)

/-- A read of a slot in a family, which has to be that of its declared type. -/
def read (layout : Layout) (family : Family) (slot : Nat) : Except Defect (Node family) := do
  match family.ownType? with
  | some ty =>
    layout.expectSlot slot ty
    return .read slot ty
  | none =>
    let ty ← layout.slotType slot
    if family = .function then
      discard <| ty.expectFunction
    else if ty.family ≠ .reference then
      throw (.referenceRead ty)
    return .read slot ty

/-- A conditional, whose branches have to be of one type. -/
def cond {family : Family} (test : Node .bool) (a b : Node family) :
    Except Defect (Node family) := do
  Ty.expectSame "conditional branches" a.ty b.ty
  return .cond test a b

/-- A type that a node of the family has to evaluate to. A primitive family has one type only;
otherwise the type is a function type or a sequence type. -/
def checkFamily (family : Family) (context : String) (noSequence : Ty → Defect) (ty : Ty) :
    Except Defect Unit :=
  match family.ownType? with
  | some own => Ty.expectSame context own ty
  | none =>
    if family = .function then discard ty.expectFunction
    else if ty.element?.isNone then .error (noSequence ty)
    else .ok ()

/-- A call, whose arguments have to be of the parameter types. -/
def call (family : Family) (callee : Node .function) (args : Nodes) :
    Except Defect (Node family) := do
  let signature ← callee.ty.expectFunction
  if !signature.accepts args.types then
    throw (.callArguments callee.ty args.types)
  checkFamily family "call result" .referenceCall signature.result
  return .call callee args signature.result

/-- An index into an array. -/
def index (family : Family) (seq : Node .reference) (i : Node .int) :
    Except Defect (Node family) := do
  match seq.ty with
  | .array element =>
    checkFamily family "indexed element" .referenceIndex element
    return .index seq i element
  | other => throw (.indexInto other)

/-- A slice of an array by a range of integers. -/
def slice (seq slicer : Node .reference) : Except Defect (Node .reference) := do
  match seq.ty with
  | .array _ =>
    Ty.expectSame "slicer" (.range .int) slicer.ty
    return .slice seq slicer
  | other => throw (.sliceOf other)

/-- Element types that have to be equal, in order. -/
def checkElements (element : Ty) : List Ty → Except Defect Unit
  | [] => .ok ()
  | t :: ts => do
    Ty.expectSame "array element" element t
    checkElements element ts

/-- An array of elements of one type. -/
def array (element : Ty) (items : Nodes) : Except Defect (Node .reference) := do
  checkElements element items.types
  return .array element items

/-- A function definition over the layout of the frame it is evaluated in. -/
def define (layout : Layout) (target : Target) (captures : List Transfer) :
    Except Defect (Node .function) := do
  match target.closure with
  | none => throw (.definesBuiltin target.name target.ty)
  | some closure => return .define target (← Capture.make layout closure captures)

/-- A binding of a slot, in front of others. -/
def bind (layout : Layout) (slot : Nat) (value : AnyNode) : Except Defect (Bindings → Bindings) := do
  layout.expectSlot slot value.ty
  return .bind value.family slot value.node

/-- A recursive binding of a slot, in front of others. Where the bound node is a definition, its
closure has to have a slot for the function itself. -/
def bindRec (layout : Layout) (slot : Nat) (value : Node .function) (closureSlot : Nat) :
    Except Defect (Bindings → Bindings) := do
  layout.expectSlot slot value.ty
  match value with
  | .define _ capture => capture.closure.expectSlot closureSlot value.ty
  | _ => pure ()
  return .bindRec slot value closureSlot

end Build

end TypedEval
