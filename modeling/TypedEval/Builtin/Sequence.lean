import TypedEval.Script
import TypedEval.Value.Elements

/-!
# Sequence builtins

Arrays, slices and closed ranges are measured, copied, mapped, filtered and folded. The callback is
called once for each element, in order, and not again after its first failure. Its closure is fixed
before the sequence is looked at. An open range, or one that cannot be counted, is reported before the
callback is called at all.
-/

namespace TypedEval.Builtin

variable [Allocator]

/-- The number of elements, if it is an integer of the guest. -/
def len : Native := fun args => do
  let v ← argument args 0
  let n : Nat ← (match v with
    | .range r => (r.count : Script Nat)
    | v => do return (← v.expectView).length)
  if fitsWord n then return .int (Int64.ofInt n)
  else Script.raise (.domain "len" ("length " ++ toString n ++ " does not fit in int"))

/-- The elements of a view as an array: the viewed array if the view is all of it, else a copy. -/
def viewToArray (v : View) : Script ArrayValue :=
  if v.isWhole then return v.array else .newStorage fun id => Script.check (v.copy id)

/-- Adds all elements to a builder with storage for them. -/
def collect (builtin : String) (element : Ty) (it : Elements) : Script Builder :=
  match Builder.withCapacity element it.remaining with
  | .error refusal => Script.raise (.host builtin refusal.message)
  | .ok b => Script.check (it.fill it.remaining b)

/-- The elements of a sequence as an array. -/
def toArray : Native := fun args => do
  match ← argument args 0 with
  | .array a => return .array a
  | .slice v => return .array (← viewToArray v)
  | v =>
    let element ← v.elementType
    let it ← v.elements
    Script.finish (← collect "to_array" element it)

/-- Adds the results of a function for at most `limit` elements, in order. -/
def mapInto (f : Function) : (limit : Nat) → Elements → Builder → Script Builder
  | 0, _, b => return b
  | limit + 1, it, b =>
    match it.next? with
    | none => return b
    | some (v, rest) => do
      let r ← Script.callFunction f [← v]
      mapInto f limit rest (← b.push r)

/-- The array of a function's results. Its element type is the function's result type. -/
def map : Native := fun args => do
  let f ← (← argument args 1).expectFunction
  Script.callSite f
  let it ← (← argument args 0).elements
  match Builder.withCapacity f.target.signature.result it.remaining with
  | .error refusal => Script.raise (.host "map" refusal.message)
  | .ok b => Script.finish (← mapInto f it.remaining it b)

/-- Adds those of at most `limit` elements that satisfy a predicate, in order. -/
def filterInto (p : Function) : (limit : Nat) → Elements → Builder → Script Builder
  | 0, _, b => return b
  | limit + 1, it, b =>
    match it.next? with
    | none => return b
    | some (v, rest) => do
      let v ← v
      let keep ← (← Script.callFunction p [v]).expectBool
      if keep then filterInto p limit rest (← b.push v) else filterInto p limit rest b

/-- The elements that satisfy a predicate. -/
def filter : Native := fun args => do
  let p ← (← argument args 1).expectFunction
  Script.callSite p
  let v ← argument args 0
  let b := Builder.new (← v.elementType)
  let it ← v.elements
  Script.finish (← filterInto p it.remaining it b)

/-- Combines an accumulator with at most `limit` elements, from the left. -/
def foldOver (f : Function) : (limit : Nat) → Elements → Value → Script Value
  | 0, _, acc => return acc
  | limit + 1, it, acc =>
    match it.next? with
    | none => return acc
    | some (v, rest) => do foldOver f limit rest (← Script.callFunction f [acc, ← v])

/-- The left fold from an initial value. -/
def fold : Native := fun args => do
  let f ← (← argument args 2).expectFunction
  Script.callSite f
  let initial ← argument args 1
  let it ← (← argument args 0).elements
  foldOver f it.remaining it initial

/-- The left fold from the first element. -/
def reduce : Native := fun args => do
  let f ← (← argument args 1).expectFunction
  Script.callSite f
  let it ← (← argument args 0).elements
  match it.next? with
  | none => Script.raise (.emptyReduce "reduce")
  | some (first, rest) => foldOver f rest.remaining rest (← first)

end TypedEval.Builtin
