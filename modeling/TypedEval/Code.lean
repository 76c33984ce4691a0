import TypedEval.Node.Eval
import TypedEval.Script

/-!
# Code

The code table holds what function values call: bodies of guest functions with the layouts of their
frames, and scripts of the host. It is filled before evaluation and only grows, so a target keeps
meaning the same code.

A guest function enters the table only if its layouts fit its type: one parameter slot for each
parameter, a body of the result type, and disclosures between slots of one type.
-/

namespace TypedEval

/-- **The body of a guest function** and the frame that it runs in. -/
structure Body where
  frame : Layout
  /-- The slots that the arguments are written to. -/
  params : List Nat
  /-- What a call takes out of its closure. -/
  disclosure : List Transfer
  node : AnyNode

/-- **What a target runs.** -/
inductive Routine where
  | user (body : Body)
  | native (script : Native)

/-- **The code table.** A target's number is its place in the table. -/
structure Code where
  routines : Array Routine

namespace Code

/-- The table without code. -/
def empty : Code := ⟨#[]⟩

/-- The code of a target. -/
def routine? (c : Code) (t : Target) : Option Routine := c.routines[t.id]?

/-- Adds a routine under the next number. -/
def add (c : Code) (r : Routine) : Code := ⟨c.routines.push r⟩

end Code

/-- **A guest function to be defined.** -/
structure FunctionSpec where
  name : Option String
  ty : Ty
  frame : Layout
  params : List Nat
  closure : Layout
  disclosure : List Transfer
  body : AnyNode

namespace FunctionSpec

/-- Parameter slots have to be declared with the parameter types. -/
def checkParams (frame : Layout) : List Nat → List Ty → Except Defect Unit
  | slot :: slots, ty :: tys => do
    frame.expectSlot slot ty
    checkParams frame slots tys
  | _, _ => .ok ()

/-- The signature of a function whose layouts fit its type. -/
def check (f : FunctionSpec) : Except Defect Signature := do
  let signature ← f.ty.expectFunction
  if signature.arity ≠ f.params.length then
    throw (.parameterSlots f.ty f.params.length)
  checkParams f.frame f.params signature.params
  Ty.expectSame "function body" signature.result f.body.ty
  checkTransfers f.closure f.frame f.disclosure
  return signature

end FunctionSpec

namespace Code

/-- **Adds a guest function**, checked against its type. -/
def define (c : Code) (f : FunctionSpec) : Except Defect (Target × Code) := do
  let signature ← f.check
  return (⟨c.routines.size, f.name, signature, some f.closure⟩,
    c.add (.user ⟨f.frame, f.params, f.disclosure, f.body⟩))

/-- **Adds a host function** of a function type. -/
def native (c : Code) (name : String) (ty : Ty) (script : Native) :
    Except Defect (Target × Code) := do
  let signature ← ty.expectFunction
  return (⟨c.routines.size, some name, signature, none⟩, c.add (.native script))

end Code

end TypedEval
