import TypedEval.Fault

/-!
# Layouts

A layout fixes the slots of one scope: an ordered list of names and types. Slots are numbered from
zero, names need not be distinct, and a later slot shadows an earlier one of the same name.

A **transfer** names a slot to copy from and a slot to copy to. Lists of transfers say what a
closure captures and what a call takes out of its closure again.
-/

namespace TypedEval

/-- **A declared slot.** -/
structure Declaration where
  name : String
  ty : Ty
  deriving DecidableEq, Inhabited

/-- **The slots of a scope.** -/
structure Layout where
  slots : Array Declaration
  deriving DecidableEq, Inhabited

/-- How a slot number is shown. -/
def slotText (slot : Nat) : String := "SlotIndex(" ++ toString slot ++ ")"

namespace Layout

/-- The layout without slots. -/
def empty : Layout := ⟨#[]⟩

/-- The number of slots. -/
def size (l : Layout) : Nat := l.slots.size

/-- The declaration of a slot. -/
def declaration (l : Layout) (slot : Nat) : Except Defect Declaration :=
  match l.slots[slot]? with
  | some d => .ok d
  | none => .error (.slotOutside slot l.size)

/-- The declared type of a slot. -/
def slotType (l : Layout) (slot : Nat) : Except Defect Ty := do
  return (← l.declaration slot).ty

/-- A slot that has to be declared with exactly this type. -/
def expectSlot (l : Layout) (slot : Nat) (ty : Ty) : Except Defect Unit := do
  let d ← l.declaration slot
  Ty.expectSame d.name d.ty ty

/-- The last slot with a name. -/
def find? (l : Layout) (name : String) : Option Nat :=
  (l.slots.toList.zipIdx.filter fun (d, _) => d.name = name).getLast?.map (·.2)

end Layout

/-- **A copy of one slot into another.** -/
structure Transfer where
  source : Nat
  target : Nat
  deriving DecidableEq, Inhabited

/-- Transfers fit two layouts when paired slots are declared with the same type. -/
def checkTransfers (source target : Layout) : List Transfer → Except Defect Unit
  | [] => .ok ()
  | t :: ts => do
    target.expectSlot t.target (← source.slotType t.source)
    checkTransfers source target ts

end TypedEval
