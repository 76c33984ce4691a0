import TypedEval.Layout

/-!
# Functions as values

A function value pairs the **target** that it calls with the closure it captured. The target is a
handle: its number finds the code in the code table, and the rest is what callers need to know
without looking there. Two instantiations of one definition share the target and never the closure.

A closure is named by its number in the store. A function that is kept inside its own closure holds
it as a **self-reference**.
-/

namespace TypedEval

/-- **The target of calls**: which code, its name and signature, and the layout of the closures
it is called with. A builtin has no closure layout. -/
structure Target where
  id : Nat
  name : Option String
  signature : Signature
  closure : Option Layout
  deriving DecidableEq, Inhabited

namespace Target

/-- The type of the function. -/
def ty (t : Target) : Ty := t.signature.ty

/-- The name that is shown. -/
def displayName (t : Target) : String := t.name.getD "<anonymous>"

/-- Whether the host runs the code. -/
def isNative (t : Target) : Bool := t.closure.isNone

/-- How a target is described. -/
def describe (t : Target) : String := describeCode t.name t.ty t.isNative

end Target

/-- **How a function value holds its closure.** -/
inductive ClosureRef where
  | shared (id : Nat)
  /-- Held inside the closure that it names. -/
  | selfReference (id : Nat)
  deriving DecidableEq, Inhabited, Repr

/-- The closure that is named, however it is held. -/
def ClosureRef.id : ClosureRef → Nat
  | .shared id | .selfReference id => id

/-- **A function value.** -/
structure Function where
  target : Target
  closure : Option ClosureRef
  deriving DecidableEq, Inhabited

namespace Function

/-- A function without a closure. -/
def plain (target : Target) : Function := ⟨target, none⟩

/-- The type of the function. -/
def ty (f : Function) : Ty := f.target.ty

/-- The name that is shown. -/
def displayName (f : Function) : String := f.target.displayName

/-- The closure that the function was captured with, if any. -/
def closureId? (f : Function) : Option Nat := f.closure.map ClosureRef.id

/-- The same function with another closure. -/
def withClosure (f : Function) (id : Nat) : Function := ⟨f.target, some (.shared id)⟩

/-- The form in which a function is kept inside its own closure. -/
def selfReference (f : Function) : Function :=
  ⟨f.target, f.closure.map fun c => .selfReference c.id⟩

/-- Whether the function is in the form kept inside its own closure. -/
def isSelfReference (f : Function) : Bool :=
  match f.closure with
  | some (.selfReference _) => true
  | _ => false

/-- Whether two values come from one instantiation: the same target and the same closure. -/
def sameInstance (f g : Function) : Bool :=
  f.target = g.target && f.closureId? = g.closureId?

/-- How a function is shown. -/
def text (f : Function) : String := "<function " ++ f.displayName ++ " " ++ f.ty.text ++ ">"

/-- How a function is described inside a frame. -/
def describe (f : Function) : String :=
  "FunctionValue \x7b name: " ++ Text.quoted f.displayName ++ ", ty: " ++ f.ty.text
    ++ ", closure: " ++ toString f.closure.isSome ++ " \x7d"

@[simp] theorem closureId?_selfReference (f : Function) :
    f.selfReference.closureId? = f.closureId? := by
  cases f with
  | mk target closure => cases closure <;> rfl

/-- A function and the form kept inside its closure are one instance. -/
theorem sameInstance_selfReference (f : Function) : f.sameInstance f.selfReference = true := by
  simp only [sameInstance, closureId?_selfReference]
  simp [selfReference]

end Function

end TypedEval
