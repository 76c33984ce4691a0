import TypedEval.Value.Text

/-!
# Frames

A frame is one activation of a layout: each declared slot has a cell, which is undefined until it is
written. Primitives are kept unboxed in cells of their own category; functions, arrays and ranges
are references.

Every access names a slot of the frame in its declared category. A slot outside the frame, another
category, a read before the first write, and a value of another type are reported, and a write that
is reported changes nothing.
-/

namespace TypedEval

/-- **The contents of a slot.** -/
inductive Cell where
  | undefined
  | bool (b : Bool)
  | int (n : Int64)
  | float (x : Float)
  | reference (v : Value)

instance : Inhabited Cell := ⟨.undefined⟩

/-- Whether something was written. -/
def Cell.isDefined : Cell → Bool
  | .undefined => false
  | _ => true

/-- **A declared slot with its contents.** -/
structure Slot extends Declaration where
  cell : Cell

instance : Inhabited Slot := ⟨⟨default, .undefined⟩⟩

/-- **One activation of a layout.** -/
structure Frame where
  slots : Array Slot
  deriving Inhabited

namespace Frame

/-- A frame with every slot undefined. -/
def allocate (l : Layout) : Frame := ⟨l.slots.map fun d => ⟨d, .undefined⟩⟩

/-- The layout that the frame is an activation of. -/
def layout (f : Frame) : Layout := ⟨f.slots.map Slot.toDeclaration⟩

/-- The number of slots. -/
def size (f : Frame) : Nat := f.slots.size

/-- The slot with a number. -/
def slot (f : Frame) (i : Nat) : Except Defect Slot :=
  match f.slots[i]? with
  | some s => .ok s
  | none => .error (.slotOutside i f.size)

/-- The declared type of a slot. -/
def slotType (f : Frame) (i : Nat) : Except Defect Ty := return (← f.slot i).ty

/-- Whether a slot was written. -/
def isDefined (f : Frame) (i : Nat) : Except Defect Bool := return (← f.slot i).cell.isDefined

/-- The slot with a number, for an access in a category. -/
def slotIn (f : Frame) (i : Nat) (category : Category) : Except Defect Slot := do
  let s ← f.slot i
  if s.ty.category = category then return s
  else throw (.slotCategory category s.name s.ty)

/-- The frame with other contents in one slot. -/
def setCell (f : Frame) (i : Nat) (cell : Cell) : Frame :=
  ⟨f.slots.modify i fun s => { s with cell }⟩

/-! ## Reading -/

/-- The boolean in a slot. -/
def readBool (f : Frame) (i : Nat) : Except Defect Bool := do
  let s ← f.slotIn i .bool
  match s.cell with
  | .bool b => return b
  | _ => throw (.undefinedSlot s.name)

/-- The integer in a slot. -/
def readInt (f : Frame) (i : Nat) : Except Defect Int64 := do
  let s ← f.slotIn i .int
  match s.cell with
  | .int n => return n
  | _ => throw (.undefinedSlot s.name)

/-- The float in a slot. -/
def readFloat (f : Frame) (i : Nat) : Except Defect Float := do
  let s ← f.slotIn i .float
  match s.cell with
  | .float x => return x
  | _ => throw (.undefinedSlot s.name)

/-- The function in a slot. -/
def readFunction (f : Frame) (i : Nat) : Except Fault Function := do
  let s ← f.slotIn i .reference
  match s.cell with
  | .reference (.function g) => return g
  | .undefined => throw (.defect (.undefinedSlot s.name))
  | .reference v => throw (.defect (.notFunctionSlot s.name v.kind))
  | _ => throw (.crash (.slotContents s.name))

/-- The reference in a slot. -/
def readReference (f : Frame) (i : Nat) : Except Defect Value := do
  let s ← f.slotIn i .reference
  match s.cell with
  | .reference v => return v
  | _ => throw (.undefinedSlot s.name)

/-- What a slot holds, in the form that a node of the family hands over. -/
def readAs (f : Frame) : (family : Family) → Nat → Except Fault (Carrier family)
  | .bool, i => f.readBool i
  | .int, i => f.readInt i
  | .float, i => f.readFloat i
  | .function, i => f.readFunction i
  | .reference, i => f.readReference i

/-- What a slot holds, boxed. -/
def readValue (f : Frame) (i : Nat) : Except Defect Value := do
  match (← f.slotType i).category with
  | .bool => return .bool (← f.readBool i)
  | .int => return .int (← f.readInt i)
  | .float => return .float (← f.readFloat i)
  | .reference => f.readReference i

/-! ## Writing -/

/-- Writes a boolean. -/
def writeBool (f : Frame) (i : Nat) (b : Bool) : Except Fault Frame := do
  discard <| f.slotIn i .bool
  return f.setCell i (.bool b)

/-- Writes an integer. -/
def writeInt (f : Frame) (i : Nat) (n : Int64) : Except Fault Frame := do
  discard <| f.slotIn i .int
  return f.setCell i (.int n)

/-- Writes a float. -/
def writeFloat (f : Frame) (i : Nat) (x : Float) : Except Fault Frame := do
  discard <| f.slotIn i .float
  return f.setCell i (.float x)

/-- Writes a function of the declared type. -/
def writeFunction (f : Frame) (i : Nat) (g : Function) : Except Fault Frame := do
  let s ← f.slotIn i .reference
  if s.ty = g.ty then return f.setCell i (.reference (.function g))
  else throw (.assertion (.functionSlotType s.name))

/-- Writes a reference of the declared type. -/
def writeReference (f : Frame) (i : Nat) (v : Value) : Except Fault Frame := do
  let s ← f.slotIn i .reference
  if v.family.isPrimitive then throw (.defect (.primitiveInReference v.kind s.name))
  else if s.ty = v.ty then return f.setCell i (.reference v)
  else throw (.assertion (.slotType s.name))

/-- Writes what a node of the family hands over. -/
def writeAs (f : Frame) (i : Nat) : (family : Family) → Carrier family → Except Fault Frame
  | .bool, b => f.writeBool i b
  | .int, n => f.writeInt i n
  | .float, x => f.writeFloat i x
  | .function, g => f.writeFunction i g
  | .reference, v => f.writeReference i v

/-- Writes a boxed value, unboxing primitives into their category. -/
def writeValue (f : Frame) (i : Nat) (v : Value) : Except Fault Frame := do
  match (← f.slotType i).category with
  | .bool => f.writeBool i (← v.expectBool)
  | .int => f.writeInt i (← v.expectInt)
  | .float => f.writeFloat i (← v.expectFloat)
  | .reference => f.writeReference i v

/-- Copies a slot of another frame, declared with the same type. An undefined slot is copied as
undefined. -/
def copySlot (source : Frame) (t : Transfer) (target : Frame) : Except Fault Frame := do
  let there ← target.slot t.target
  let here ← source.slot t.source
  Ty.expectSame here.name there.ty here.ty
  return target.setCell t.target here.cell

/-! ## Text -/

/-- The described contents of a slot. -/
def cellText : Cell → Except Fault String
  | .undefined => .ok "<undefined>"
  | .bool b => .ok (toString b)
  | .int n => .ok (toString n.toInt)
  | .float x => .ok (floatText x)
  | .reference v => v.describe

/-- The described frame: quoted names and contents, in the order of the slots. -/
def describe (f : Frame) : Except Fault String := do
  let entries ← f.slots.toList.mapM fun s => return Text.quoted s.name ++ ": " ++ (← cellText s.cell)
  return "\x7b" ++ ", ".intercalate entries ++ "\x7d"

end Frame

end TypedEval
