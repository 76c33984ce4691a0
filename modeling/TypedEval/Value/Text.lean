import TypedEval.Value.Elements

/-!
# The text of a value

Values have two texts. The **shown** text is what a user sees: arrays and slices are lists in
brackets, functions show their name and type. The **described** text, used inside frames, tells
arrays from slices and functions from their closures.

A text is made of the cells that a view shows and of no others: what else its storage holds costs
nothing. It exists unless some view inside the value reaches outside its storage.
`text_slice` says this in terms of the entries of a view.
-/

namespace TypedEval

/-- Texts between brackets. -/
def bracketed (parts : List String) : String := "[" ++ ", ".intercalate parts ++ "]"

mutual

/-- **The shown text of a value.** -/
def Value.text : Value → Except Fault String
  | .bool b => .ok (toString b)
  | .int n => .ok (toString n.toInt)
  | .float x => .ok (floatText x)
  | .function f => .ok f.text
  | .range r => .ok r.text
  | .array ⟨_, _, storage⟩ =>
    return bracketed (← (ViewOf.walk 1 storage.size 0).mapM fun p => storage.textAt p)
  | .slice ⟨⟨_, _, storage⟩, offset, step, length⟩ =>
    return bracketed (← (ViewOf.walk step length offset).mapM fun p => storage.textAt p)

/-- The shown text of the cell at a position. -/
def Storage.textAt : Storage Value → UInt64 → Except Fault String
  | s@(.boxed items), p =>
    if h : p.toNat < items.size then items[p.toNat].text
    else .error (s.outside p)
  | s@(.bools items), p =>
    match items[p.toNat]? with
    | some b => .ok (toString b)
    | none => .error (s.outside p)
  | s@(.ints items), p =>
    match items[p.toNat]? with
    | some n => .ok (toString n.toInt)
    | none => .error (s.outside p)
  | s@(.floats items), p =>
    match items[p.toNat]? with
    | some x => .ok (floatText x)
    | none => .error (s.outside p)

end

/-- The text at a position is the text of the element there. -/
theorem Storage.textAt_eq (s : Storage Value) (p : UInt64) :
    s.textAt p = s.read p >>= Value.text := by
  cases s with
  | boxed items =>
    by_cases h : p.toNat < items.size <;> simp [textAt, read, h, bind, Except.bind]
  | _ items =>
    cases h : items[p.toNat]? <;> simp [textAt, read, h, Value.text, bind, Except.bind]

/-- A slice shows its entries. -/
theorem Value.text_slice (v : View) :
    (Value.slice v).text
      = return bracketed (← v.positions.mapM fun p => v.array.storage.read p >>= Value.text) := by
  obtain ⟨⟨id, element, storage⟩, offset, step, length⟩ := v
  simp only [Value.text, Storage.textAt_eq]
  rfl

/-- **The described text of a value.** -/
def Value.describe (v : Value) : Except Fault String :=
  match v with
  | .function f => .ok f.describe
  | .array _ | .slice _ => return v.kind.name ++ (← v.text)
  | _ => v.text

end TypedEval
