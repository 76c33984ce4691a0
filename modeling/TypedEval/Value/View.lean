import TypedEval.Value.Builder

/-!
# Views

A view addresses the storage of an array through an offset and a stride, which may be negative, and
never copies. Guest indices are one-based. A slicer is an integer range, read against a view of
length `n` as follows:

* a missing first bound is `1` for a positive step and `n` for a negative one;
* a missing last bound is `n` for a positive step and `1` for a negative one;
* a given first bound lies in `1 … max 1 n`;
* a given last bound lies in `1 … n`, or one unit step before the first bound, which is the empty
  slice there.

Two computations reach the cells of a view. **Positions** are computed from the index by a
multiplication that must not leave the machine word; a **walk** goes from cell to cell by wrapping
additions. That they agree is a property of views whose cells lie in storage.
-/

namespace TypedEval

namespace Storage

variable {α : Type}

/-- The crash of a position outside storage. -/
def outside (s : Storage α) (position : UInt64) : Fault :=
  .crash (.storagePosition position.toNat s.size)

/-- The boxed element at a position. -/
def read (s : Storage Value) (position : UInt64) : Except Fault Value :=
  match s with
  | .bools items =>
    match items[position.toNat]? with
    | some b => .ok (.bool b)
    | none => .error (s.outside position)
  | .ints items =>
    match items[position.toNat]? with
    | some n => .ok (.int n)
    | none => .error (s.outside position)
  | .floats items =>
    match items[position.toNat]? with
    | some x => .ok (.float x)
    | none => .error (s.outside position)
  | .boxed items =>
    match items[position.toNat]? with
    | some v => .ok v
    | none => .error (s.outside position)

end Storage

namespace ArrayOf

/-- The boolean at a position of boolean storage. -/
def readBool (a : ArrayValue) (position : UInt64) : Except Fault Bool :=
  match a.storage with
  | .bools items =>
    match items[position.toNat]? with
    | some b => .ok b
    | none => .error (a.storage.outside position)
  | _ => .error (.defect (.elementStorage .bool a.element))

/-- The integer at a position of integer storage. -/
def readInt (a : ArrayValue) (position : UInt64) : Except Fault Int64 :=
  match a.storage with
  | .ints items =>
    match items[position.toNat]? with
    | some n => .ok n
    | none => .error (a.storage.outside position)
  | _ => .error (.defect (.elementStorage .int a.element))

/-- The float at a position of float storage. -/
def readFloat (a : ArrayValue) (position : UInt64) : Except Fault Float :=
  match a.storage with
  | .floats items =>
    match items[position.toNat]? with
    | some x => .ok x
    | none => .error (a.storage.outside position)
  | _ => .error (.defect (.elementStorage .float a.element))

end ArrayOf

namespace ViewOf

variable {α : Type}

/-! ## Positions -/

/-- The position of the cell with zero-based index `k`. -/
def position (v : ViewOf α) (k : Nat) : Except Fault UInt64 :=
  let stride := (k : Int) * v.step.toInt
  let place := v.offset.toInt64.toInt + stride
  if fitsWord stride && fitsWord place then .ok (Int64.ofInt place).toUInt64
  else .error (.crash .positionOverflow)

/-- The position of a one-based index. -/
def locate (v : ViewOf α) (index : Int64) : Except Fault UInt64 :=
  if 1 ≤ index.toInt ∧ index.toInt ≤ v.length then v.position (index.toInt.toNat - 1)
  else .error (.raised (.indexOutOfBounds index v.length))

/-- The boxed element at a one-based index. -/
def get (v : View) (index : Int64) : Except Fault Value := do
  v.array.storage.read (← v.locate index)

/-- The boolean at a one-based index. -/
def getBool (v : View) (index : Int64) : Except Fault Bool := do
  v.array.readBool (← v.locate index)

/-- The integer at a one-based index. -/
def getInt (v : View) (index : Int64) : Except Fault Int64 := do
  v.array.readInt (← v.locate index)

/-- The float at a one-based index. -/
def getFloat (v : View) (index : Int64) : Except Fault Float := do
  v.array.readFloat (← v.locate index)

/-- The element at a one-based index, in the form that a node of the family hands over. -/
def getAs (v : View) : (family : Family) → Int64 → Except Fault (Carrier family)
  | .bool, index => v.getBool index
  | .int, index => v.getInt index
  | .float, index => v.getFloat index
  | .function, index => do (← v.get index).expectFunction
  | .reference, index => v.get index

/-! ## Slicing -/

/-- The first bound of a slicer over `length` elements. -/
def firstBound (r : IntRange) (length : Nat) : Except Cause Int :=
  match r.first with
  | some first =>
    if first.toInt < 1 ∨ max 1 (length : Int) < first.toInt then
      .error (.invalidSlice first length)
    else .ok first.toInt
  | none => .ok (if 0 < r.step.toInt then 1 else length)

/-- The last bound of a slicer over `length` elements, after its first bound. -/
def lastBound (r : IntRange) (length : Nat) (first : Int) : Except Cause Int :=
  match r.last with
  | some last =>
    let emptyHere := r.step.toInt.natAbs = 1 ∧ last.toInt = first - r.step.toInt
    if ¬ emptyHere ∧ (last.toInt < 1 ∨ (length : Int) < last.toInt) then
      .error (.invalidSlice last length)
    else .ok last.toInt
  | none => .ok (if 0 < r.step.toInt then length else 1)

/-- How many elements a slicer selects between its bounds, as the number of steps that stay within
the half-open run from `first` to just past `last`. -/
def selected (first last step : Int) : Nat :=
  let start := first - 1
  let stop := last - 1 + step.sign
  if 0 < step then
    if stop ≤ start then 0 else (Int.tdiv (stop - start + step - 1) step).toNat
  else if start ≤ stop then 0
  else (Int.tdiv (start - stop - step - 1) (-step)).toNat

/-- **The slice of a view by an integer range**, over the same storage. -/
def slice (v : ViewOf α) (r : IntRange) : Except Fault (ViewOf α) := do
  let first ← firstBound r v.length
  let last ← lastBound r v.length first
  let count := selected first last r.step.toInt
  if count = 0 then
    return { v with length := 0 }
  let stride := r.step.toInt * v.step.toInt
  let step ←
    if count = 1 then pure v.step
    else if fitsWord stride then pure (Int64.ofInt stride)
    else throw (.raised (.invalidSlice r.step v.length))
  return { v with offset := ← v.position (first - 1).toNat, step, length := count }

/-! ## Walking -/

/-- The positions of `count` cells, from one to the next by wrapping addition. -/
def walk (step : Int64) : (count : Nat) → (next : UInt64) → List UInt64
  | 0, _ => []
  | count + 1, next => next :: walk step count (next + step.toUInt64)

/-- The positions of a view's cells, in order. -/
def positions (v : ViewOf α) : List UInt64 := walk v.step v.length v.offset

/-- The elements of a view in order, or a crash in the place of a cell outside storage. -/
def entries (v : View) : List (Except Fault Value) :=
  v.positions.map v.array.storage.read

/-- Whether the view shows its whole array as it is. -/
def isWhole (v : ViewOf α) : Bool :=
  v.offset = 0 && v.step = 1 && v.length = v.array.size

end ViewOf

end TypedEval
