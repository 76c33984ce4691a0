import TypedEval.Value.View

/-!
# Elements of a sequence

Arrays, slices and closed ranges are enumerated one element at a time, and the number of elements
that remain is known throughout. Nothing is materialised: a range of `2^63` elements is enumerated
like one of three.
-/

namespace TypedEval

/-- **An enumeration of a sequence.** -/
inductive Elements where
  /-- Cells of a storage, from one to the next. -/
  | cells (storage : Storage Value) (next : UInt64) (step : Int64) (remaining : Nat)
  | ints (it : IntSteps)
  | floats (it : FloatSteps)

namespace Elements

/-- The number of elements that remain. -/
def remaining : Elements → Nat
  | .cells _ _ _ remaining => remaining
  | .ints it => it.remaining
  | .floats it => it.count - it.index

/-- What an enumeration tells of the elements to come: at least and at most how many. -/
def sizeHint (it : Elements) : Nat × Option Nat := (it.remaining, some it.remaining)

/-- The next element and the enumeration after it. No step is taken past the last element. -/
def next? : Elements → Option (Except Fault Value × Elements)
  | .cells storage next step remaining =>
    match remaining with
    | 0 => none
    | n + 1 =>
      some (storage.read next,
        .cells storage (if n = 0 then next else next + step.toUInt64) step n)
  | .ints it => it.next?.map fun (n, rest) => (.ok (.int n), .ints rest)
  | .floats it => it.next?.map fun (x, rest) => (.ok (.float x), .floats rest)

/-- At most `limit` elements, in order. -/
def take : (limit : Nat) → Elements → List (Except Fault Value)
  | 0, _ => []
  | limit + 1, it =>
    match it.next? with
    | none => []
    | some (v, rest) => v :: take limit rest

/-- All elements, in order. -/
def toList (it : Elements) : List (Except Fault Value) := it.take it.remaining

/-- Adds at most `limit` elements to a builder, in order. -/
def fill : (limit : Nat) → Elements → Builder → Except Fault Builder
  | 0, _, b => .ok b
  | limit + 1, it, b =>
    match it.next? with
    | none => .ok b
    | some (v, rest) => do fill limit rest (← b.push (← v))

/-- Going from cell to cell meets the cells of a walk. -/
theorem take_cells (storage : Storage Value) (step : Int64) (count : Nat) (next : UInt64) :
    (cells storage next step count).take count = (ViewOf.walk step count next).map storage.read := by
  induction count generalizing next with
  | zero => rfl
  | succ n ih =>
    cases n with
    | zero => rfl
    | succ m =>
      rw [ViewOf.walk, List.map_cons, ← ih]
      rfl

end Elements

/-- The enumeration of a view. -/
def ViewOf.elements (v : View) : Elements :=
  .cells v.array.storage v.offset v.step v.length

/-- A view enumerates its entries. -/
theorem ViewOf.toList_elements (v : View) : v.elements.toList = v.entries :=
  Elements.take_cells _ _ _ _

/-- A fresh array of the elements of a view. -/
def ViewOf.copy (v : View) (id : Nat) : Except Fault ArrayValue := do
  return (← v.elements.fill v.length (.new v.element)).finish id

/-- The enumeration of a range that has to be closed. -/
def Range.elements : Range → Except Cause Elements
  | .int r => return .ints (← r.steps)
  | .float r => return .floats (← r.steps)

/-- The enumeration of a value that has to be a sequence. -/
def Value.elements : Value → Except Fault Elements
  | .array a => .ok (ViewOf.whole a).elements
  | .slice v => .ok v.elements
  | .range r => r.elements
  | v => .error (.defect (v.misfit .sequence))

end TypedEval
