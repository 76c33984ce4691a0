import TypedEval.Value.Basic

/-!
# Building arrays

A builder collects the elements of one array. Boxed elements are accepted when their family is that
of the element type; unboxed ones when the storage is in their category. A rejected element leaves
the builder as it was.

Storage is asked for ahead where the number of elements is known. A request for more than one
collection can hold, or for more than the allocator grants, is refused before any element is computed.
What the allocator grants is a parameter of everything that asks for storage.
-/

namespace TypedEval

/-- **An array under construction.** -/
structure Builder where
  element : Ty
  storage : Storage Value

namespace Builder

/-- A builder without elements. -/
def new (element : Ty) : Builder := ⟨element, .empty element.category⟩

/-- The number of elements so far. -/
def size (b : Builder) : Nat := b.storage.size

/-- Adds a boolean to boolean storage. -/
def pushBool (b : Builder) (x : Bool) : Except Fault Builder :=
  match b.storage with
  | .bools items => .ok { b with storage := .bools (items.push x) }
  | _ => .error (.defect (.elementStorage .bool b.element))

/-- Adds an integer to integer storage. -/
def pushInt (b : Builder) (x : Int64) : Except Fault Builder :=
  match b.storage with
  | .ints items => .ok { b with storage := .ints (items.push x) }
  | _ => .error (.defect (.elementStorage .int b.element))

/-- Adds a float to float storage. -/
def pushFloat (b : Builder) (x : Float) : Except Fault Builder :=
  match b.storage with
  | .floats items => .ok { b with storage := .floats (items.push x) }
  | _ => .error (.defect (.elementStorage .float b.element))

/-- Adds a boxed value to whatever the storage is, unboxing primitives. -/
def store (b : Builder) (v : Value) : Except Fault Builder := do
  match b.storage with
  | .bools items => return { b with storage := .bools (items.push (← v.expectBool)) }
  | .ints items => return { b with storage := .ints (items.push (← v.expectInt)) }
  | .floats items => return { b with storage := .floats (items.push (← v.expectFloat)) }
  | .boxed items => return { b with storage := .boxed (items.push v) }

/-- Adds a boxed value of the element type's family. -/
def push (b : Builder) (v : Value) : Except Fault Builder :=
  if v.family = b.element.family then b.store v else .error (.assertion .elementFamily)

/-- Adds what a node of a family hands over: primitives unboxed, the rest boxed. -/
def pushAs (b : Builder) : (family : Family) → Carrier family → Except Fault Builder
  | .bool, x => b.pushBool x
  | .int, x => b.pushInt x
  | .float, x => b.pushFloat x
  | .function, f => b.push (.function f)
  | .reference, v => b.push v

/-- Adds boxed values in order. -/
def pushAll (b : Builder) : List Value → Except Fault Builder
  | [] => .ok b
  | v :: vs => do (← b.push v).pushAll vs

/-- The finished array, under the identity of its storage. -/
def finish (b : Builder) (id : Nat) : ArrayValue := ⟨id, b.element, b.storage⟩

end Builder

/-! ## Asking for storage -/

/-- The bytes of one cell. -/
def Category.cellBytes : Category → Nat
  | .bool => 1
  | .int | .float => 8
  | .reference => 48

/-- **A refused request for storage.** -/
inductive Refusal where
  /-- More bytes than a collection may have. -/
  | capacity
  /-- More bytes than the allocator can give. -/
  | allocation
  deriving DecidableEq, Inhabited

/-- The wording of a refusal. -/
def Refusal.message : Refusal → String
  | .capacity =>
    "memory allocation failed because the computed capacity exceeded the collection's maximum"
  | .allocation => "memory allocation failed because the memory allocator returned an error"

/-- The bytes that no collection reaches, `2^63`. -/
def collectionLimit : Nat := 9223372036854775808

/-- **An allocator**, which grants some numbers of bytes and refuses the others. -/
class Allocator where
  grants : Nat → Bool

/-- The bytes that no address space has room for, `2^47`. -/
def allocationLimit : Nat := 140737488355328

/-- The allocator that refuses only what no address space has room for. -/
instance Allocator.addressSpace : Allocator where
  grants bytes := decide (bytes < allocationLimit)

section

variable [Allocator]

/-- Asks for `count` cells of a category. A request for nothing does not reach the allocator. -/
def reserve (category : Category) (count : Nat) : Except Refusal Unit :=
  let bytes := count * category.cellBytes
  if collectionLimit ≤ bytes then .error .capacity
  else if bytes = 0 || Allocator.grants bytes then .ok ()
  else .error .allocation

/-- A builder with storage for `count` elements. -/
def Builder.withCapacity (element : Ty) (count : Nat) : Except Refusal Builder := do
  reserve element.category count
  return .new element

end

end TypedEval
