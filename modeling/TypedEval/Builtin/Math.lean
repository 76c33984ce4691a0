import TypedEval.Script

/-!
# Numeric builtins

Square roots, absolute values, signs, and the constructors of float arrays and integer ranges.
-/

namespace TypedEval.Builtin

/-- The square root of a number that is not negative. -/
def sqrt : Native := fun args => do
  let x ← (← argument args 0).expectFloat
  if x < 0.0 then Script.raise (.domain "sqrt" ("negative argument " ++ floatText x))
  else return .float x.sqrt

/-- The absolute value of an integer; that of the least one does not fit. -/
def absInt : Native := fun args => do
  let n ← (← argument args 0).expectInt
  return .int (← checkedInt "abs" n.toInt.natAbs)

/-- The absolute value of a float. -/
def absFloat : Native := fun args => do
  let x ← (← argument args 0).expectFloat
  return .float x.abs

/-- The sign of an integer. -/
def signInt : Native := fun args => do
  let n ← (← argument args 0).expectInt
  return .int (Int64.ofInt n.toInt.sign)

/-- The sign of a float; a zero keeps its own, and a NaN stays. -/
def signFloat : Native := fun args => do
  let x ← (← argument args 0).expectFloat
  return .float (if x == 0.0 || x.isNaN then x else if x < 0.0 then -1.0 else 1.0)

/-- Whether a float is greater than zero. -/
def positive : Native := fun args => do
  let x ← (← argument args 0).expectFloat
  return .bool (decide (0.0 < x))

/-- An array of zeros. -/
def zeros [Allocator] : Native := fun args => do
  let n ← (← argument args 0).expectInt
  if n.toInt < 0 then Script.raise (.domain "zeros" ("negative length " ++ toString n.toInt))
  else
    match reserve .float n.toInt.toNat with
    | .error refusal => Script.raise (.host "zeros" refusal.message)
    | .ok () => Script.finish ⟨.float, .floats (Array.replicate n.toInt.toNat 0.0)⟩

/-- A closed range of integers with the implied step. -/
def range : Native := fun args => do
  let first ← (← argument args 0).expectInt
  let last ← (← argument args 1).expectInt
  return .range (.int (← IntRange.make (some first) (some last) none))

/-- A closed range of integers with a given step. -/
def steppedRange : Native := fun args => do
  let first ← (← argument args 0).expectInt
  let last ← (← argument args 1).expectInt
  let step ← (← argument args 2).expectInt
  return .range (.int (← IntRange.make (some first) (some last) (some step)))

end TypedEval.Builtin
