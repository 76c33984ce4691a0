import TypedEval.Arith
import TypedEval.Decimal.Text

/-!
# Ranges

A range has inclusive bounds, either of which may be missing, and a step. Where no step is given it
is `-1` if both bounds are there and descend, and `1` otherwise. A range without one of its bounds
is a value like any other (a slicer says "to the end" with it) but has no elements to enumerate.

The elements of a closed integer range are its arithmetic progression, counted in unbounded
integers. Those of a closed float range are `first + i · step`, so that rounding does not add up
along the range.
-/

namespace TypedEval

/-- The largest number of elements that can be counted, `2^64 - 1`. -/
def maxCount : Nat := 18446744073709551615

/-- The wording for a range with more elements than can be counted. -/
def tooManyElements (first last step : String) : Cause :=
  .domain "range" (first ++ " to " ++ last ++ " by " ++ step ++ " has too many elements")

/-- A bound as text: a missing one is a star. -/
def boundText (text : α → String) : Option α → String
  | some bound => text bound
  | none => "*"

/-! ## Integer ranges -/

/-- **An integer range.** Its step is neither zero nor the least integer, whose negation does not
fit. -/
structure IntRange where
  first : Option Int64
  last : Option Int64
  step : Int64
  step_ne_zero : step ≠ 0
  step_ne_min : step ≠ Int64.minValue
  deriving DecidableEq

namespace IntRange

/-- The step of a range that gives none. -/
def impliedStep : Option Int64 → Option Int64 → Int64
  | some first, some last => if last.toInt < first.toInt then -1 else 1
  | _, _ => 1

theorem impliedStep_eq (first last : Option Int64) :
    impliedStep first last = 1 ∨ impliedStep first last = -1 := by
  unfold impliedStep
  split
  · split <;> simp
  · simp

theorem impliedStep_ne_zero (first last : Option Int64) : impliedStep first last ≠ 0 := by
  rcases impliedStep_eq first last with h | h <;> rw [h] <;> decide

theorem impliedStep_ne_min (first last : Option Int64) :
    impliedStep first last ≠ Int64.minValue := by
  rcases impliedStep_eq first last with h | h <;> rw [h] <;> decide

/-- A range from its parts. -/
def make (first last step : Option Int64) : Except Cause IntRange :=
  let step := step.getD (impliedStep first last)
  if zero : step = 0 then .error .zeroStep
  else if least : step = Int64.minValue then
    .error (.domain "range" ("step must be greater than " ++ toString Int64.minValue.toInt))
  else .ok ⟨first, last, step, zero, least⟩

/-- The closed range with the implied step. -/
def closed (first last : Int64) : IntRange :=
  ⟨some first, some last, impliedStep (some first) (some last),
    impliedStep_ne_zero _ _, impliedStep_ne_min _ _⟩

/-- The written form, `first:last` or `first:last:step`. -/
def text (r : IntRange) : String :=
  let number (n : Int64) := toString n.toInt
  boundText number r.first ++ ":" ++ boundText number r.last
    ++ (if r.step = impliedStep r.first r.last then "" else ":" ++ number r.step)

/-- Both bounds of a range that has to be closed. -/
def bounds (r : IntRange) : Except Cause (Int64 × Int64) :=
  match r.first, r.last with
  | some first, some last => .ok (first, last)
  | _, _ => .error (.openRange r.text)

/-- The number of elements from `first` to `last` by `step`. -/
def countBetween (first last step : Int64) : Except Cause Nat :=
  let span :=
    if 0 < step.toInt then last.toInt - first.toInt else first.toInt - last.toInt
  if span < 0 then .ok 0
  else
    let count := span.toNat / step.toInt.natAbs + 1
    if count ≤ maxCount then .ok count
    else .error (tooManyElements (toString first.toInt) (toString last.toInt)
      (toString step.toInt))

/-- The number of elements of a closed range. -/
def count (r : IntRange) : Except Cause Nat := do
  let (first, last) ← r.bounds
  countBetween first last r.step

end IntRange

/-- **An enumeration of an arithmetic progression**: the next element and how many remain. -/
structure IntSteps where
  next : Int64
  step : Int64
  remaining : Nat
  deriving DecidableEq, Inhabited

/-- The next element and the enumeration after it. No step is taken past the last element. -/
def IntSteps.next? (it : IntSteps) : Option (Int64 × IntSteps) :=
  match it.remaining with
  | 0 => none
  | n + 1 => some (it.next, ⟨if n = 0 then it.next else it.next + it.step, it.step, n⟩)

/-- The enumeration of a closed range. -/
def IntRange.steps (r : IntRange) : Except Cause IntSteps := do
  let (first, last) ← r.bounds
  return ⟨first, r.step, ← countBetween first last r.step⟩

/-! ## Float ranges -/

/-- **A float range.** -/
structure FloatRange where
  first : Option Float
  last : Option Float
  step : Float

namespace FloatRange

/-- The step of a range that gives none. -/
def impliedStep : Option Float → Option Float → Float
  | some first, some last => if last < first then -1.0 else 1.0
  | _, _ => 1.0

/-- A range from its parts: the step is finite and not zero. -/
def make (first last step : Option Float) : Except Cause FloatRange :=
  let step := step.getD (impliedStep first last)
  if step == 0.0 then .error .zeroStep
  else if step.isFinite then .ok ⟨first, last, step⟩
  else .error (.domain "range" ("step must be finite, found " ++ floatPositional step))

/-- The written form, `first:last` or `first:last:step`. -/
def text (r : FloatRange) : String :=
  boundText floatText r.first ++ ":" ++ boundText floatText r.last
    ++ (if r.step == impliedStep r.first r.last then "" else ":" ++ floatText r.step)

/-- Both bounds of a range that has to be closed. -/
def bounds (r : FloatRange) : Except Cause (Float × Float) :=
  match r.first, r.last with
  | some first, some last => .ok (first, last)
  | _, _ => .error (.openRange r.text)

/-- The least float that is no count of steps, `2^64`. -/
def countLimit : Float := 18446744073709551616.0

/-- The number of elements from `first` to `last` by `step`. -/
def countBetween (first last step : Float) : Except Cause Nat :=
  let steps := ((last - first) / step).floor
  if steps.isNaN || steps.isInf then
    .error (.domain "range" ("cannot enumerate " ++ floatPositional first ++ " to "
      ++ floatPositional last ++ " by " ++ floatPositional step))
  else if steps < 0.0 then .ok 0
  else if countLimit ≤ steps then
    .error (tooManyElements (floatPositional first) (floatPositional last) (floatPositional step))
  else .ok (steps.toUInt64.toNat + 1)

/-- The number of elements of a closed range. -/
def count (r : FloatRange) : Except Cause Nat := do
  let (first, last) ← r.bounds
  countBetween first last r.step

/-- Ranges are equal part by part, floats by the IEEE rules. -/
def equal (r s : FloatRange) : Bool :=
  r.first == s.first && r.last == s.last && r.step == s.step

end FloatRange

/-- **An enumeration of a float range**: the elements are computed from their index. -/
structure FloatSteps where
  first : Float
  step : Float
  index : Nat
  count : Nat

/-- The next element and the enumeration after it. -/
def FloatSteps.next? (it : FloatSteps) : Option (Float × FloatSteps) :=
  if it.index < it.count then
    some (it.first + (UInt64.ofNat it.index).toFloat * it.step, { it with index := it.index + 1 })
  else none

/-- The enumeration of a closed range. -/
def FloatRange.steps (r : FloatRange) : Except Cause FloatSteps := do
  let (first, last) ← r.bounds
  return ⟨first, r.step, 0, ← countBetween first last r.step⟩

/-! ## Ranges of either element type -/

/-- **A range of integers or of floats.** -/
inductive Range where
  | int (r : IntRange)
  | float (r : FloatRange)

namespace Range

/-- The element type. -/
def element : Range → Ty
  | .int _ => .int
  | .float _ => .float

/-- The written form. -/
def text : Range → String
  | .int r => r.text
  | .float r => r.text

/-- The number of elements of a closed range. -/
def count : Range → Except Cause Nat
  | .int r => r.count
  | .float r => r.count

/-- Ranges of one element type are compared part by part; others differ. -/
def equal : Range → Range → Bool
  | .int r, .int s => r == s
  | .float r, .float s => r.equal s
  | _, _ => false

/-- The integer range of a range that has to be one. -/
def expectInt : Range → Except Defect IntRange
  | .int r => .ok r
  | .float _ => .error .floatSlicer

end Range

end TypedEval
