import TypedEval.Function
import TypedEval.Range

/-!
# Values

A value is the boxed form of every family. Nodes hand primitives over unboxed and box them where a
value of any type may stand: at a call, inside a collection of references, and at the end.

Arrays are immutable. Their storage is chosen by the category of the element type, so primitives
are kept unboxed, and it carries an identity by which two arrays can be told to share it. No guest
program can observe that identity.

Unboxing a value of the wrong shape is a defect: some node was not of the type it declared.
-/

namespace TypedEval

/-- **The cells of an array**, in the category of its element type. -/
inductive Storage (α : Type) where
  | bools (items : Array Bool)
  | ints (items : Array Int64)
  | floats (items : Array Float)
  | boxed (items : Array α)

namespace Storage

variable {α : Type}

/-- No cells, for elements of a category. -/
def empty : Category → Storage α
  | .bool => .bools #[]
  | .int => .ints #[]
  | .float => .floats #[]
  | .reference => .boxed #[]

/-- The number of cells. -/
def size : Storage α → Nat
  | .bools items => items.size
  | .ints items => items.size
  | .floats items => items.size
  | .boxed items => items.size

/-- The category that the cells are in. -/
def category : Storage α → Category
  | .bools _ => .bool
  | .ints _ => .int
  | .floats _ => .float
  | .boxed _ => .reference

@[simp] theorem category_empty (c : Category) : (empty c : Storage α).category = c := by
  cases c <;> rfl

@[simp] theorem size_empty (c : Category) : (empty c : Storage α).size = 0 := by
  cases c <;> rfl

end Storage

/-- **An array**: its element type, its storage, and the identity of that storage. -/
structure ArrayOf (α : Type) where
  id : Nat
  element : Ty
  storage : Storage α

/-- The number of elements. -/
def ArrayOf.size {α : Type} (a : ArrayOf α) : Nat := a.storage.size

/-- Whether two arrays share their storage. -/
def ArrayOf.sharesStorage {α : Type} (a b : ArrayOf α) : Bool := a.id = b.id

/-- **A view of an array**: `length` cells, the first at `offset` and each next one `step` on. -/
structure ViewOf (α : Type) where
  array : ArrayOf α
  offset : UInt64
  step : Int64
  length : Nat

namespace ViewOf

variable {α : Type}

/-- The view of a whole array. -/
def whole (a : ArrayOf α) : ViewOf α := ⟨a, 0, 1, a.size⟩

/-- The element type. -/
def element (v : ViewOf α) : Ty := v.array.element

end ViewOf

/-- **A value in boxed form.** -/
inductive Value where
  | bool (b : Bool)
  | int (n : Int64)
  | float (x : Float)
  | function (f : Function)
  | array (a : ArrayOf Value)
  | slice (v : ViewOf Value)
  | range (r : Range)

instance : Inhabited Value := ⟨.bool false⟩

/-- An array of values. -/
abbrev ArrayValue := ArrayOf Value

/-- A view of an array of values. -/
abbrev View := ViewOf Value

namespace Value

/-- The kind of a value. -/
def kind : Value → Kind
  | .bool _ => .bool
  | .int _ => .int
  | .float _ => .float
  | .function _ => .function
  | .array _ => .array
  | .slice _ => .slice
  | .range _ => .range

/-- The family of a value. -/
def family : Value → Family
  | .bool _ => .bool
  | .int _ => .int
  | .float _ => .float
  | .function _ => .function
  | .array _ | .slice _ | .range _ => .reference

/-- The type of a value. -/
def ty : Value → Ty
  | .bool _ => .bool
  | .int _ => .int
  | .float _ => .float
  | .function f => f.ty
  | .array a => .array a.element
  | .slice v => .array v.element
  | .range r => .range r.element

/-- A value's family is that of its type. -/
@[simp] theorem family_ty (v : Value) : v.ty.family = v.family := by
  cases v <;> rfl

/-- The defect of a value that is not of the shape it had to be. -/
def misfit (expected : Shape) (found : Value) : Defect := .unboxing expected found.kind

/-- The boolean of a value that has to be one. -/
def expectBool : Value → Except Defect Bool
  | .bool b => .ok b
  | v => .error (v.misfit .bool)

/-- The integer of a value that has to be one. -/
def expectInt : Value → Except Defect Int64
  | .int n => .ok n
  | v => .error (v.misfit .int)

/-- The float of a value that has to be one. -/
def expectFloat : Value → Except Defect Float
  | .float x => .ok x
  | v => .error (v.misfit .float)

/-- The function of a value that has to be one. -/
def expectFunction : Value → Except Defect Function
  | .function f => .ok f
  | v => .error (v.misfit .function)

/-- The view of a value that has to be an array or a slice. -/
def expectView : Value → Except Defect View
  | .array a => .ok (.whole a)
  | .slice v => .ok v
  | v => .error (v.misfit .array)

/-- The range of a value that has to be one. -/
def expectRange : Value → Except Defect Range
  | .range r => .ok r
  | v => .error (v.misfit .range)

/-- The element type of a value that has to be a sequence. -/
def elementType : Value → Except Defect Ty
  | .array a => .ok a.element
  | .slice v => .ok v.element
  | .range r => .ok r.element
  | v => .error (v.misfit .sequence)

end Value

/-! ## Families and their unboxed carriers -/

/-- **What a node of a family hands over.** -/
@[reducible] def Carrier : Family → Type
  | .bool => Bool
  | .int => Int64
  | .float => Float
  | .function => Function
  | .reference => Value

namespace Family

/-- The boxed form of what a node hands over. -/
def box : (family : Family) → Carrier family → Value
  | .bool, b => .bool b
  | .int, n => .int n
  | .float, x => .float x
  | .function, f => .function f
  | .reference, v => v

/-- The unboxed form of a value in the family. A reference stays as it is. -/
def unbox : (family : Family) → Value → Except Defect (Carrier family)
  | .bool, v => v.expectBool
  | .int, v => v.expectInt
  | .float, v => v.expectFloat
  | .function, v => v.expectFunction
  | .reference, v => .ok v

/-- Unboxing gives back what was boxed. -/
@[simp] theorem unbox_box : (family : Family) → (x : Carrier family) →
    family.unbox (family.box x) = .ok x
  | .bool, _ => rfl
  | .int, _ => rfl
  | .float, _ => rfl
  | .function, _ => rfl
  | .reference, _ => rfl

end Family

end TypedEval
