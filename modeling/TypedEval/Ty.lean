/-!
# Guest types

A guest type is a primitive, a function type, an array type or a range type, and two types are
equal when they are built alike. Every type is evaluated in one **family** (the shape in which a
node hands over its result) and stored in one **category** (the shape of a frame slot or an array
cell). Categories are coarser: functions share the reference category with arrays and ranges.

`Ty.text` is the type's written form: `int[]`, `range<float>`, `(int,float->bool)`, `(->int)`.
-/

namespace TypedEval

/-- **A guest type.** An array and every slice of it have the same type. -/
inductive Ty where
  | bool
  | int
  | float
  | function (params : List Ty) (result : Ty)
  | array (element : Ty)
  | range (element : Ty)
  deriving Inhabited

namespace Ty

mutual

/-- Types are compared structurally. -/
def decEq : (a b : Ty) → Decidable (a = b)
  | .bool, .bool => isTrue rfl
  | .int, .int => isTrue rfl
  | .float, .float => isTrue rfl
  | .function ps r, .function qs s =>
    match decEqList ps qs, decEq r s with
    | isTrue hp, isTrue hr => isTrue (by rw [hp, hr])
    | isFalse hp, _ => isFalse (by intro h; injection h; exact hp (by assumption))
    | _, isFalse hr => isFalse (by intro h; injection h; exact hr (by assumption))
  | .array e, .array f =>
    match decEq e f with
    | isTrue h => isTrue (by rw [h])
    | isFalse h => isFalse (by intro g; injection g; exact h (by assumption))
  | .range e, .range f =>
    match decEq e f with
    | isTrue h => isTrue (by rw [h])
    | isFalse h => isFalse (by intro g; injection g; exact h (by assumption))
  | .bool, .int | .bool, .float | .bool, .function _ _ | .bool, .array _ | .bool, .range _
  | .int, .bool | .int, .float | .int, .function _ _ | .int, .array _ | .int, .range _
  | .float, .bool | .float, .int | .float, .function _ _ | .float, .array _ | .float, .range _
  | .function _ _, .bool | .function _ _, .int | .function _ _, .float
  | .function _ _, .array _ | .function _ _, .range _
  | .array _, .bool | .array _, .int | .array _, .float | .array _, .function _ _
  | .array _, .range _
  | .range _, .bool | .range _, .int | .range _, .float | .range _, .function _ _
  | .range _, .array _ => isFalse (by intro h; cases h)

/-- Lists of types are compared position by position. -/
def decEqList : (as bs : List Ty) → Decidable (as = bs)
  | [], [] => isTrue rfl
  | [], _ :: _ => isFalse (by intro h; cases h)
  | _ :: _, [] => isFalse (by intro h; cases h)
  | a :: as, b :: bs =>
    match decEq a b, decEqList as bs with
    | isTrue ha, isTrue hs => isTrue (by rw [ha, hs])
    | isFalse ha, _ => isFalse (by intro h; injection h; exact ha (by assumption))
    | _, isFalse hs => isFalse (by intro h; injection h; exact hs (by assumption))

end

instance : DecidableEq Ty := decEq

mutual

/-- The written form of a type. -/
def text : Ty → String
  | .bool => "bool"
  | .int => "int"
  | .float => "float"
  | .function params result => "(" ++ paramsText params ++ "->" ++ text result ++ ")"
  | .array element => text element ++ "[]"
  | .range element => "range<" ++ text element ++ ">"

/-- Parameter types, separated by commas. -/
def paramsText : List Ty → String
  | [] => ""
  | t :: ts => text t ++ restText ts

/-- The parameter types after the first, each behind its comma. -/
def restText : List Ty → String
  | [] => ""
  | t :: ts => "," ++ text t ++ restText ts

end

end Ty

/-- **A signature**: what a function takes and what it gives back. -/
structure Signature where
  params : List Ty
  result : Ty
  deriving DecidableEq, Inhabited

namespace Signature

/-- The function type with this signature. -/
def ty (s : Signature) : Ty := .function s.params s.result

/-- The written form of the function type. -/
def text (s : Signature) : String := s.ty.text

/-- The number of parameters. -/
def arity (s : Signature) : Nat := s.params.length

/-- Arguments are accepted when their types are exactly the parameter types. -/
def accepts (s : Signature) (args : List Ty) : Bool := s.params = args

end Signature

/-- **A category of storage**: how a slot or an array cell holds a value. -/
inductive Category where
  | bool
  | int
  | float
  | reference
  deriving DecidableEq, Inhabited, Repr

/-- The name of a category, as defects show it. -/
def Category.name : Category → String
  | .bool => "bool"
  | .int => "int"
  | .float => "float"
  | .reference => "reference"

/-- **A family of evaluation**: the shape in which a node hands over its result. -/
inductive Family where
  | bool
  | int
  | float
  | function
  | reference
  deriving DecidableEq, Inhabited, Repr

namespace Family

/-- The name of a family. -/
def name : Family → String
  | .bool => "bool"
  | .int => "int"
  | .float => "float"
  | .function => "function"
  | .reference => "reference"

/-- Functions are stored with the other references. -/
def category : Family → Category
  | .bool => .bool
  | .int => .int
  | .float => .float
  | .function | .reference => .reference

/-- Members of a primitive family are kept unboxed. -/
def isPrimitive : Family → Bool
  | .bool | .int | .float => true
  | .function | .reference => false

end Family

namespace Ty

/-- The family that values of this type are evaluated in. -/
def family : Ty → Family
  | .bool => .bool
  | .int => .int
  | .float => .float
  | .function _ _ => .function
  | .array _ | .range _ => .reference

/-- The category that values of this type are stored in. -/
def category (t : Ty) : Category := t.family.category

/-- The signature of a function type. -/
def signature? : Ty → Option Signature
  | .function params result => some ⟨params, result⟩
  | _ => none

/-- The element type of an array or range type. -/
def element? : Ty → Option Ty
  | .array element | .range element => some element
  | _ => none

/-- Whether this is a function type. -/
def isFunction (t : Ty) : Bool := t.signature?.isSome

@[simp] theorem signature?_function (params : List Ty) (result : Ty) :
    (Ty.function params result).signature? = some ⟨params, result⟩ := rfl

@[simp] theorem family_array (element : Ty) : (Ty.array element).family = .reference := rfl

@[simp] theorem family_range (element : Ty) : (Ty.range element).family = .reference := rfl

/-- A type has a signature exactly when it is a function type with it. -/
theorem signature?_eq_some_iff {t : Ty} {s : Signature} : t.signature? = some s ↔ t = s.ty := by
  cases t <;> simp [signature?, Signature.ty]
  · constructor
    · rintro rfl; exact ⟨rfl, rfl⟩
    · rintro ⟨rfl, rfl⟩; rfl

end Ty

end TypedEval
