import TypedEval.Closure

/-!
# Nodes

A node is an expression of one family: evaluating it hands over what the family carries. Nodes of
all families are one indexed type, so that a conditional, a block, a call or an index is written
once, and an operator can only be given operands of the family it works on.

Lists of nodes of any family, the parts of a range, and the bindings of a block are types of their
own beside it. A node carries the types that its construction found out: that of the slot it reads,
of the result of a call, of the element of an index.
-/

namespace TypedEval

mutual

/-- **A node of a family.** -/
inductive Node : Family → Type where
  | bool (b : Bool) : Node .bool
  | int (n : Int64) : Node .int
  | float (x : Float) : Node .float
  | function (f : Function) : Node .function
  /-- A constant array, slice or range. -/
  | constant (v : Value) : Node .reference
  /-- What a slot declared with type `ty` holds. -/
  | read {family : Family} (slot : Nat) (ty : Ty) : Node family
  | not (a : Node .bool) : Node .bool
  | logic (op : LogicOp) (a b : Node .bool) : Node .bool
  | compareInt (op : CompareOp) (a b : Node .int) : Node .bool
  | compareFloat (op : CompareOp) (a b : Node .float) : Node .bool
  | negateInt (a : Node .int) : Node .int
  | arithInt (op : IntOp) (a b : Node .int) : Node .int
  | negateFloat (a : Node .float) : Node .float
  | arithFloat (op : FloatOp) (a b : Node .float) : Node .float
  /-- Evaluates one of two branches. -/
  | cond {family : Family} (test : Node .bool) (a b : Node family) : Node family
  /-- Executes bindings in order, then evaluates a body in the same frame. -/
  | block {family : Family} (bindings : Bindings) (body : Node family) : Node family
  /-- Calls a function, whose result has type `result`. -/
  | call {family : Family} (callee : Node .function) (args : Nodes) (result : Ty) : Node family
  /-- The element of an array at a one-based index; elements have type `element`. -/
  | index {family : Family} (seq : Node .reference) (i : Node .int) (element : Ty) : Node family
  | slice (seq slicer : Node .reference) : Node .reference
  /-- An array of the given elements. -/
  | array (element : Ty) (items : Nodes) : Node .reference
  | intRange (first last step : Part .int) : Node .reference
  | floatRange (first last step : Part .float) : Node .reference
  /-- A function of the given code, with what it captures from this frame. -/
  | define (target : Target) (capture : Capture) : Node .function

/-- **Nodes of any families**, in order. -/
inductive Nodes : Type where
  | nil
  | cons (family : Family) (head : Node family) (tail : Nodes)

/-- **A part of a range**, which may be missing. -/
inductive Part : Family → Type where
  | none {family : Family} : Part family
  | some {family : Family} (node : Node family) : Part family

/-- **The bindings of a block**, in order. -/
inductive Bindings : Type where
  | nil
  /-- Stores the value of a node in a slot. -/
  | bind (family : Family) (slot : Nat) (value : Node family) (rest : Bindings)
  /-- Stores a function in a slot and inside its own closure. -/
  | bindRec (slot : Nat) (value : Node .function) (closureSlot : Nat) (rest : Bindings)

end

/-- **A node with its family.** -/
structure AnyNode where
  family : Family
  node : Node family

namespace Node

/-- The type of what a node of the function or reference family evaluates to. -/
def referenceTy : {family : Family} → Node family → Ty
  | _, .function f => f.ty
  | _, .constant v => v.ty
  | _, .read _ ty => ty
  | _, .cond _ a _ => a.referenceTy
  | _, .block _ body => body.referenceTy
  | _, .call _ _ result => result
  | _, .index _ _ element => element
  | _, .slice seq _ => seq.referenceTy
  | _, .array element _ => .array element
  | _, .intRange .. => .range .int
  | _, .floatRange .. => .range .float
  | _, .define target _ => target.ty
  | _, .bool _ | _, .not _ | _, .logic .. | _, .compareInt .. | _, .compareFloat .. => .bool
  | _, .int _ | _, .negateInt _ | _, .arithInt .. => .int
  | _, .float _ | _, .negateFloat _ | _, .arithFloat .. => .float

/-- **The type of a node.** In a primitive family it is the family's own type. -/
def ty : {family : Family} → Node family → Ty
  | .bool, _ => .bool
  | .int, _ => .int
  | .float, _ => .float
  | .function, n => n.referenceTy
  | .reference, n => n.referenceTy

end Node

/-- The type of a node of any family. -/
def AnyNode.ty (n : AnyNode) : Ty := n.node.ty

namespace Nodes

/-- Nodes from a list. -/
def ofList : List AnyNode → Nodes
  | [] => .nil
  | n :: ns => .cons n.family n.node (ofList ns)

/-- The types of the nodes. -/
def types : Nodes → List Ty
  | .nil => []
  | .cons _ n ns => n.ty :: ns.types

end Nodes

end TypedEval
