import TypedEval.Fault

/-!
# Arithmetic and comparison

Integer operations are computed in unbounded integers and checked against 64 bits: the result is
exact or the operation is an overflow. Division truncates toward zero and the remainder has the
sign of the dividend. Float operations follow the IEEE rules and never fail.
-/

namespace TypedEval

/-- Whether an integer fits in 64 bits: `-2^63 ≤ n < 2^63`. -/
def fitsWord (n : Int) : Bool :=
  decide (-9223372036854775808 ≤ n ∧ n < 9223372036854775808)

/-- The 64-bit form of an exact result, or an overflow in the named operation. -/
def checkedInt (operation : String) (n : Int) : Except Cause Int64 :=
  if fitsWord n then .ok (Int64.ofInt n) else .error (.integerOverflow operation)

/-- **A binary integer operator.** -/
inductive IntOp where
  | add
  | sub
  | mul
  | div
  | rem
  | pow
  deriving DecidableEq, Inhabited, Repr

namespace IntOp

/-- An exponent that gives the same power, or one that is out of 64 bits alike: from 64 on, the
powers of `0`, `1` and `-1` depend on the exponent's parity alone and all others overflow. -/
def reducedExponent (e : Nat) : Nat := if e < 64 then e else 64 + e % 2

/-- `a` to the power `b`. An exponent of more than 32 bits is not computed with: the bases `0`, `1`
and `-1` decide the power by themselves, and every other one overflows. -/
def power (a b : Int64) : Except Cause Int64 :=
  if b.toInt < 0 then .error (.domain "^" ("negative exponent " ++ toString b.toInt))
  else if b.toInt < 4294967296 then
    checkedInt "exponentiation" (Int.pow a.toInt (reducedExponent b.toInt.toNat))
  else if a = 0 ∨ a = 1 then .ok a
  else if a = -1 then .ok (if b.toInt % 2 = 0 then 1 else -1)
  else .error (.integerOverflow "exponentiation")

/-- The result of an operator, exact or an error. -/
def apply : IntOp → Int64 → Int64 → Except Cause Int64
  | .add, a, b => checkedInt "addition" (a.toInt + b.toInt)
  | .sub, a, b => checkedInt "subtraction" (a.toInt - b.toInt)
  | .mul, a, b => checkedInt "multiplication" (a.toInt * b.toInt)
  | .div, a, b =>
    if b = 0 then .error .divisionByZero
    else checkedInt "division" (Int.tdiv a.toInt b.toInt)
  | .rem, a, b =>
    if b = 0 then .error .divisionByZero
    else if a = Int64.minValue ∧ b = -1 then .error (.integerOverflow "remainder")
    else .ok (Int64.ofInt (Int.tmod a.toInt b.toInt))
  | .pow, a, b => power a b

end IntOp

/-- The negation of an integer. -/
def negateInt (a : Int64) : Except Cause Int64 := checkedInt "negation" (-a.toInt)

/-- **A binary float operator.** -/
inductive FloatOp where
  | add
  | sub
  | mul
  | div
  | pow
  deriving DecidableEq, Inhabited, Repr

/-- The result of a float operator. -/
def FloatOp.apply : FloatOp → Float → Float → Float
  | .add, a, b => a + b
  | .sub, a, b => a - b
  | .mul, a, b => a * b
  | .div, a, b => a / b
  | .pow, a, b => Float.pow a b

/-- **A binary operator on booleans.** Conjunction and disjunction look at their right operand
only if the left one does not decide. -/
inductive LogicOp where
  | and
  | or
  | xor
  | eq
  | ne
  deriving DecidableEq, Inhabited, Repr

namespace LogicOp

/-- The result when the left operand alone decides it. -/
def decided? : LogicOp → Bool → Option Bool
  | .and, false => some false
  | .or, true => some true
  | _, _ => none

/-- The result from both operands. -/
def apply : LogicOp → Bool → Bool → Bool
  | .and, a, b => a && b
  | .or, a, b => a || b
  | .xor, a, b => a != b
  | .eq, a, b => a == b
  | .ne, a, b => a != b

end LogicOp

/-- **A comparison of two numbers of one type.** -/
inductive CompareOp where
  | lt
  | le
  | gt
  | ge
  | eq
  | ne
  deriving DecidableEq, Inhabited, Repr

namespace CompareOp

/-- Integers are compared as integers. -/
def applyInt : CompareOp → Int64 → Int64 → Bool
  | .lt, a, b => decide (a.toInt < b.toInt)
  | .le, a, b => decide (a.toInt ≤ b.toInt)
  | .gt, a, b => decide (b.toInt < a.toInt)
  | .ge, a, b => decide (b.toInt ≤ a.toInt)
  | .eq, a, b => a == b
  | .ne, a, b => a != b

/-- Floats are compared by the IEEE rules: every comparison with a NaN is false but `ne`. -/
def applyFloat : CompareOp → Float → Float → Bool
  | .lt, a, b => decide (a < b)
  | .le, a, b => decide (a ≤ b)
  | .gt, a, b => decide (b < a)
  | .ge, a, b => decide (b ≤ a)
  | .eq, a, b => a == b
  | .ne, a, b => a != b

end CompareOp

end TypedEval
