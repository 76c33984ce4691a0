import TypedEval.Ty
import TypedEval.Text.Quoted

/-!
# Ways to end without a value

A **cause** is what a well-typed program can still run into: a bad index, an overflow, an empty
reduction, a failure of the host. A **defect** is a tree, a frame or a call that no checker would
have let through. An **assertion** is a consistency check that failed where a value was stored or
handed back. A **crash** is an access outside storage or a missing host argument.

Each is a constructor with its data, and each has its wording in one function. Causes alone are
shown to the guest's user together with the calls they left (`Halt.within`); the other three end
the evaluation as they are.
-/

namespace TypedEval

/-- **The kind of a value**, as defects name it. -/
inductive Kind where
  | bool
  | int
  | float
  | function
  | array
  | slice
  | range
  deriving DecidableEq, Inhabited, Repr

/-- The name of a kind. -/
def Kind.name : Kind → String
  | .bool => "bool"
  | .int => "int"
  | .float => "float"
  | .function => "function"
  | .array => "array"
  | .slice => "slice"
  | .range => "range"

/-- **What a boxed value was asked to be.** A `sequence` is an array, a slice or a range. -/
inductive Shape where
  | bool
  | int
  | float
  | function
  | array
  | range
  | sequence
  deriving DecidableEq, Inhabited, Repr

/-- The name of a shape. -/
def Shape.name : Shape → String
  | .bool => "bool"
  | .int => "int"
  | .float => "float"
  | .function => "function"
  | .array => "array"
  | .range => "range"
  | .sequence => "sequence"

/-! ## Causes -/

/-- **A cause**: an error that a well-typed program can meet. -/
inductive Cause where
  /-- A one-based index outside a sequence. -/
  | indexOutOfBounds (index : Int64) (length : Nat)
  /-- A slice bound (or stride) that the sliced sequence does not admit. -/
  | invalidSlice (bound : Int64) (length : Nat)
  /-- A range with step zero. -/
  | zeroStep
  /-- A range without one of its bounds was iterated. -/
  | openRange (range : String)
  /-- An integer result outside 64 bits. -/
  | integerOverflow (operation : String)
  | divisionByZero
  /-- An argument outside the domain of a function. -/
  | domain (function : String) (message : String)
  /-- A reduction of nothing. -/
  | emptyReduce (function : String)
  /-- The host's part of a builtin failed. -/
  | host (builtin : String) (message : String)
  deriving DecidableEq, Inhabited

namespace Cause

/-- The wording of a cause. -/
def message : Cause → String
  | .indexOutOfBounds index length =>
    "index " ++ toString index.toInt ++ " out of bounds for sequence of length " ++ toString length
  | .invalidSlice bound length =>
    "slice bound " ++ toString bound.toInt ++ " out of range for sequence of length "
      ++ toString length
  | .zeroStep => "step must be non-zero"
  | .openRange range => "cannot iterate open-ended range " ++ range
  | .integerOverflow operation => "integer overflow in " ++ operation
  | .divisionByZero => "division by zero"
  | .domain function message => function ++ ": " ++ message
  | .emptyReduce function => function ++ " of an empty sequence"
  | .host builtin message => "builtin " ++ builtin ++ " failed: " ++ message

/-- Whether the host's part of a builtin is to blame, and not the evaluator. -/
def isHost : Cause → Bool
  | .host _ _ => true
  | _ => false

end Cause

/-! ## Defects -/

/-- How the code of a function is shown: its name, its type, and whether the host runs it. -/
def describeCode (name : Option String) (ty : Ty) (native : Bool) : String :=
  "CallTarget \x7b name: " ++ Text.quoted (name.getD "<anonymous>") ++ ", ty: " ++ ty.text
    ++ ", native: " ++ toString native ++ ", .. \x7d"

/-- **A defect**: a tree, a frame or a call that breaks a rule which types and layouts promise. -/
inductive Defect where
  /-- A function type was needed. -/
  | notFunction (found : Ty)
  /-- An array or range type was needed. -/
  | notSequence (found : Ty)
  /-- Two types that must be equal are not. -/
  | typeMismatch (context : String) (expected actual : Ty)
  /-- A slot number beyond the layout. -/
  | slotOutside (slot : Nat) (size : Nat)
  /-- A slot accessed in a category other than the declared one. -/
  | slotCategory (category : Category) (name : String) (declared : Ty)
  /-- A read of a slot that was never written. -/
  | undefinedSlot (name : String)
  /-- A function was read from a slot that holds something else. -/
  | notFunctionSlot (name : String) (found : Kind)
  /-- A primitive written to a reference slot. -/
  | primitiveInReference (found : Kind) (name : String)
  /-- A boxed value of the wrong shape. -/
  | unboxing (expected : Shape) (found : Kind)
  /-- An array cell accessed in a category other than that of its element type. -/
  | elementStorage (requested : Category) (element : Ty)
  /-- A float range where a slicer was needed. -/
  | floatSlicer
  /-- A function type with a different number of parameter slots. -/
  | parameterSlots (ty : Ty) (slots : Nat)
  /-- A call with the wrong number of arguments. -/
  | argumentCount (given expected : Nat)
  /-- A builtin called with a closure. -/
  | builtinClosure (name : String)
  /-- A call without the closure that its captures need. -/
  | missingClosure (captures : Nat)
  /-- A call with a closure for a function that captures nothing. -/
  | needlessClosure
  /-- A self-reference whose closure is gone. -/
  | lostClosure (name : String)
  /-- A function whose code is not there. -/
  | lostCode (name : String)
  /-- A recursive binding of a function that has no closure layout. -/
  | recursiveBuiltin (slot : String)
  /-- A function definition whose code is a builtin. -/
  | definesBuiltin (name : Option String) (ty : Ty)
  /-- A primitive or a function as a reference constant. -/
  | referenceConstant (found : Kind)
  /-- A reference read of a slot that holds no array or range. -/
  | referenceRead (declared : Ty)
  /-- A reference call whose result is no array or range. -/
  | referenceCall (result : Ty)
  /-- A reference index whose element is no array or range. -/
  | referenceIndex (element : Ty)
  /-- An index into something other than an array. -/
  | indexInto (found : Ty)
  /-- A slice of something other than an array. -/
  | sliceOf (found : Ty)
  /-- A call whose arguments do not fit the callee. -/
  | callArguments (callee : Ty) (args : List Ty)
  deriving DecidableEq, Inhabited

namespace Defect

/-- The wording of a defect, after its heading. -/
def message : Defect → String
  | .notFunction found => "expected a function type, found " ++ found.text
  | .notSequence found => "expected an array or range type, found " ++ found.text
  | .typeMismatch context expected actual =>
    context ++ ": expected " ++ expected.text ++ ", found " ++ actual.text
  | .slotOutside slot size =>
    "SlotIndex(" ++ toString slot ++ ") outside a frame of " ++ toString size ++ " slots"
  | .slotCategory category name declared =>
    category.name ++ " access to slot `" ++ name ++ "` declared " ++ declared.text
  | .undefinedSlot name => "read of undefined slot `" ++ name ++ "`"
  | .notFunctionSlot name found =>
    "function read of slot `" ++ name ++ "` holding a " ++ found.name
  | .primitiveInReference found name =>
    found.name ++ " written to reference slot `" ++ name ++ "`"
  | .unboxing expected found =>
    "expected a " ++ expected.name ++ " value, found " ++ found.name
  | .elementStorage requested element =>
    requested.name ++ " element read from an array of " ++ element.text
  | .floatSlicer => "expected range<int>, found range<float>"
  | .parameterSlots ty slots =>
    ty.text ++ " declared with " ++ toString slots ++ " parameter slots"
  | .argumentCount given expected =>
    toString given ++ " arguments passed to a function of " ++ toString expected ++ " parameters"
  | .builtinClosure name => "closure passed to builtin " ++ name
  | .missingClosure captures =>
    "call needs " ++ toString captures ++ " captured slots but has no closure"
  | .needlessClosure => "closure passed to a function that captures nothing"
  | .lostClosure name => "self-reference of " ++ name ++ " outlived its closure"
  | .lostCode name => "call of " ++ name ++ " without code"
  | .recursiveBuiltin slot =>
    "recursive binding of `" ++ slot ++ "` to a function without a closure layout"
  | .definesBuiltin name ty => "definition of builtin " ++ describeCode name ty true
  | .referenceConstant found => found.name ++ " constant in a reference node"
  | .referenceRead declared => "reference read of slot declared " ++ declared.text
  | .referenceCall result => "reference call returning " ++ result.text
  | .referenceIndex element => "reference index into an array of " ++ element.text
  | .indexInto found => "index into " ++ found.text
  | .sliceOf found => "slice of " ++ found.text
  | .callArguments callee args =>
    "call of " ++ callee.text ++ " with arguments (" ++ Ty.paramsText args ++ ")"

/-- The full text of a defect. -/
def text (d : Defect) : String := "internal evaluator defect: " ++ d.message

end Defect

/-! ## Assertions and crashes -/

/-- **An assertion**: a consistency check where a value is stored or handed back. -/
inductive Assertion where
  /-- A value of another type was written to a reference slot. -/
  | slotType (name : String)
  /-- A function of another type was written to a slot. -/
  | functionSlotType (name : String)
  /-- An element of another family was pushed to an array. -/
  | elementFamily
  /-- A call gave back a value of another family. -/
  | callResult (function : String)
  deriving DecidableEq, Inhabited

/-- The text of a failed assertion. -/
def Assertion.text : Assertion → String
  | .slotType name => "type of slot `" ++ name ++ "`"
  | .functionSlotType name => "function type of slot `" ++ name ++ "`"
  | .elementFamily => "array element representation"
  | .callResult function => "result of " ++ function

/-- **A crash**: an access that no check stands in front of. -/
inductive Crash where
  /-- A position outside an array's storage. -/
  | storagePosition (position size : Nat)
  /-- A position that does not fit the machine word it is computed in. -/
  | positionOverflow
  /-- A slot whose contents are not in the category of its declared type. -/
  | slotContents (name : String)
  /-- A host function without the argument it reads. -/
  | missingArgument (index : Nat)
  deriving DecidableEq, Inhabited

/-! ## Faults and halts -/

/-- **A fault**: what went wrong, at the place where it went wrong. -/
inductive Fault where
  | raised (cause : Cause)
  | defect (d : Defect)
  | assertion (a : Assertion)
  | crash (c : Crash)
  deriving DecidableEq, Inhabited

/-- **A halt**: how a run ended without a value. Either a fault reached the top, a raised cause
with the names of the calls that it left, innermost first; or the run went deeper than the depth
it was given. -/
inductive Halt where
  | fault (f : Fault) (trace : List String)
  | exhausted
  deriving DecidableEq, Inhabited

/-- A raised cause that leaves a call to `name` records that call; everything else passes. -/
def Halt.within (name : String) : Halt → Halt
  | .fault (.raised cause) trace => .fault (.raised cause) (trace ++ [name])
  | h => h

/-- The text of a cause with its calls, one numbered line each, as it is shown to the user. -/
def Cause.report (cause : Cause) (trace : List String) : String :=
  if trace.isEmpty then cause.message
  else
    cause.message ++ "\nstack backtrace:"
      ++ String.join (trace.zipIdx.map fun (name, i) => "\n  " ++ toString i ++ ": " ++ name)

instance : MonadLift (Except Cause) (Except Fault) where
  monadLift x := x.mapError .raised

instance : MonadLift (Except Defect) (Except Fault) where
  monadLift x := x.mapError .defect

@[simp] theorem lift_cause_ok {α : Type} (a : α) :
    (liftM (Except.ok a : Except Cause α) : Except Fault α) = .ok a := rfl

@[simp] theorem lift_cause_error {α : Type} (c : Cause) :
    (liftM (Except.error c : Except Cause α) : Except Fault α) = .error (.raised c) := rfl

@[simp] theorem lift_defect_ok {α : Type} (a : α) :
    (liftM (Except.ok a : Except Defect α) : Except Fault α) = .ok a := rfl

@[simp] theorem lift_defect_error {α : Type} (d : Defect) :
    (liftM (Except.error d : Except Defect α) : Except Fault α) = .error (.defect d) := rfl

/-! ## Checks on types -/

namespace Ty

/-- The signature of a type that has to be a function type. -/
def expectFunction (t : Ty) : Except Defect Signature :=
  match t.signature? with
  | some s => .ok s
  | none => .error (.notFunction t)

/-- The element type of a type that has to be an array or range type. -/
def expectElement (t : Ty) : Except Defect Ty :=
  match t.element? with
  | some e => .ok e
  | none => .error (.notSequence t)

/-- Two types that have to be equal. -/
def expectSame (context : String) (expected actual : Ty) : Except Defect Unit :=
  if expected = actual then .ok () else .error (.typeMismatch context expected actual)

end Ty

end TypedEval
