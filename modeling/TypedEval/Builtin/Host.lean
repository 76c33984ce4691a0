import TypedEval.Script

/-!
# Further host functions

Small host functions for callbacks and for failures, outside the standard library. None of them
counts its arguments.
-/

namespace TypedEval.Builtin.Host

/-- The checked sum of two integers. -/
def add : Native := fun args => do
  let a ← (← argument args 0).expectInt
  let b ← (← argument args 1).expectInt
  return .int (← IntOp.add.apply a b)

/-- The sum of two floats. -/
def addFloat : Native := fun args => do
  let a ← (← argument args 0).expectFloat
  let b ← (← argument args 1).expectFloat
  return .float (a + b)

/-- Whether an integer is even. -/
def isEven : Native := fun args => do
  let n ← (← argument args 0).expectInt
  return .bool (n.toInt % 2 == 0)

/-- One more than an integer, whatever the other arguments. -/
def count : Native := fun args => do
  let n ← (← argument args 0).expectInt
  return .int (← IntOp.add.apply n 1)

/-- The first argument. -/
def first : Native := fun args => do
  return ← argument args 0

/-- True, whatever the arguments. -/
def truth : Native := fun _ => return .bool true

/-- Fails as the host does, showing the first argument. -/
def fail : Native := fun args => do
  let shown ← (← argument args 0).text
  Script.raise (.host "fail" ("refused " ++ shown))

/-- Rejects its first argument, describing it. -/
def reject : Native := fun args => do
  let shown ← (← argument args 0).describe
  Script.raise (.domain "reject" shown)

/-- The host functions by name. -/
def named : List (String × Native) :=
  [("add", add), ("fadd", addFloat), ("is_even", isEven), ("count", count), ("first", first),
    ("truth", truth), ("fail", fail), ("reject", reject)]

end TypedEval.Builtin.Host
