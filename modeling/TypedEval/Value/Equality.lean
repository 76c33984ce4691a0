import TypedEval.Value.Elements

/-!
# Equality of values

Arrays and slices are equal when they have one element type, one length and equal elements in
order, whether or not one of them is a view. Functions are equal when they come from one
instantiation, ranges when their parts are equal, and floats by the IEEE rules.

A comparison stops at the first pair that differs, and looks at no cell that a view does not show.
It crashes only at a cell outside storage that it reaches before. `equal_slice` says this in terms
of the entries of two views.
-/

namespace TypedEval

/-- Compares paired positions in order, up to the first pair that differs. The cell on the left is
reached before the one on the right. -/
def allPaired (left : UInt64 → Except Fault (Value → Except Fault Bool))
    (right : UInt64 → Except Fault Value) : List UInt64 → List UInt64 → Except Fault Bool
  | p :: ps, q :: qs => do
    let test ← left p
    if ← test (← right q) then allPaired left right ps qs else return false
  | _, _ => .ok true

/-- Compares cells, given by their tests, with a value that may be an array or a slice. -/
def equalCells (element : Ty) (positions : List UInt64) (length : Nat)
    (left : UInt64 → Except Fault (Value → Except Fault Bool)) (other : Value) :
    Except Fault Bool :=
  match other.expectView with
  | .error _ => .ok false
  | .ok w =>
    if element = w.element ∧ length = w.length then
      allPaired left w.array.storage.read positions w.positions
    else .ok false

mutual

/-- **Equality of values.** -/
def Value.equal : Value → Value → Except Fault Bool
  | .bool a, other =>
    match other with
    | .bool b => .ok (a == b)
    | _ => .ok false
  | .int a, other =>
    match other with
    | .int b => .ok (a == b)
    | _ => .ok false
  | .float a, other =>
    match other with
    | .float b => .ok (a == b)
    | _ => .ok false
  | .function f, other =>
    match other with
    | .function g => .ok (f.sameInstance g)
    | _ => .ok false
  | .range r, other =>
    match other with
    | .range s => .ok (r.equal s)
    | _ => .ok false
  | .array ⟨_, element, storage⟩, other =>
    equalCells element (ViewOf.walk 1 storage.size 0) storage.size (fun p => storage.testAt p) other
  | .slice ⟨⟨_, element, storage⟩, offset, step, length⟩, other =>
    equalCells element (ViewOf.walk step length offset) length (fun p => storage.testAt p) other

/-- The test whether a value equals the cell at a position. -/
def Storage.testAt : Storage Value → UInt64 → Except Fault (Value → Except Fault Bool)
  | s@(.boxed items), p =>
    if h : p.toNat < items.size then .ok fun other => items[p.toNat].equal other
    else .error (s.outside p)
  | s@(.bools items), p =>
    match items[p.toNat]? with
    | none => .error (s.outside p)
    | some a => .ok fun other =>
      match other with
      | .bool b => .ok (a == b)
      | _ => .ok false
  | s@(.ints items), p =>
    match items[p.toNat]? with
    | none => .error (s.outside p)
    | some a => .ok fun other =>
      match other with
      | .int b => .ok (a == b)
      | _ => .ok false
  | s@(.floats items), p =>
    match items[p.toNat]? with
    | none => .error (s.outside p)
    | some a => .ok fun other =>
      match other with
      | .float b => .ok (a == b)
      | _ => .ok false

end

/-- The test at a position is equality with the element there. -/
theorem Storage.testAt_eq (s : Storage Value) (p : UInt64) :
    s.testAt p = (s.read p).map Value.equal := by
  cases s with
  | boxed items =>
    by_cases h : p.toNat < items.size <;> simp [testAt, read, h, Except.map]
  | _ items =>
    cases h : items[p.toNat]? <;> simp [testAt, read, h, Except.map]
    funext other
    cases other <;> simp only [Value.equal]

/-- A slice equals an array or a slice when they have one element type, one length and equal
entries. -/
theorem Value.equal_slice (v : View) (other : Value) :
    (Value.slice v).equal other
      = equalCells v.element v.positions v.length
          (fun p => (v.array.storage.read p).map Value.equal) other := by
  obtain ⟨⟨id, element, storage⟩, offset, step, length⟩ := v
  simp only [Value.equal, Storage.testAt_eq]
  rfl

/-- An array is compared as the view of the whole array. -/
theorem Value.equal_array (a : ArrayValue) (other : Value) :
    (Value.array a).equal other = (Value.slice (.whole a)).equal other := by
  obtain ⟨id, element, storage⟩ := a
  simp only [ViewOf.whole, Value.equal]
  rfl

end TypedEval
