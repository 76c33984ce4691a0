import TypedEval.Proofs.Renaming.Values

/-!
# Frames under new numbers

Renaming a frame renames what its slots hold and keeps their declarations. An access to a slot of a
renamed frame reads the renamed contents, or fails with the same fault, since faults name slots, types
and kinds and no closure; a write of a renamed value is the renamed write. Capture and disclosure copy
slots, and so do the same, where disclosure hands out the new number of the closure.
-/

namespace TypedEval

/-- The same contents under new numbers. -/
def Cell.rename (ρ : Relabeling) : Cell → Cell
  | .undefined => .undefined
  | .bool b => .bool b
  | .int n => .int n
  | .float x => .float x
  | .reference v => .reference (v.rename ρ)

/-- The same slot with its contents under new numbers. -/
def Slot.rename (ρ : Relabeling) (s : Slot) : Slot := { s with cell := s.cell.rename ρ }

/-- **The same frame with its contents under new numbers.** -/
def Frame.rename (ρ : Relabeling) (f : Frame) : Frame := ⟨f.slots.map (Slot.rename ρ)⟩

section

variable (ρ τ : Relabeling)

@[simp] theorem Cell.isDefined_rename (c : Cell) : (c.rename ρ).isDefined = c.isDefined := by
  cases c <;> rfl

theorem Cell.rename_rename (c : Cell) : (c.rename ρ).rename τ = c.rename (ρ.andThen τ) := by
  cases c with
  | reference v => exact congrArg Cell.reference (v.rename_rename ρ τ)
  | _ => rfl

namespace Frame

variable (f : Frame) (i : Nat)

theorem rename_rename : (f.rename ρ).rename τ = f.rename (ρ.andThen τ) := by
  simp [rename, Slot.rename, Cell.rename_rename, Function.comp_def]

/-- A relabeling leaves a frame alone just if it leaves the references in its slots alone. -/
theorem rename_eq_self {f : Frame} {ρ : Relabeling} :
    f.rename ρ = f ↔ ∀ (i : Nat) (s : Slot) (v : Value), f.slots[i]? = some s →
      s.cell = .reference v → v.rename ρ = v := by
  constructor
  · intro h i s v hs hv
    have same := congrArg (fun f : Frame => f.slots[i]?) h
    have fixed : s.rename ρ = s := by simpa [rename, hs] using same
    have cell := congrArg Slot.cell fixed
    rw [Slot.rename, hv] at cell
    exact Cell.reference.inj cell
  · intro h
    have fixed : ∀ s ∈ f.slots, s.rename ρ = id s := by
      rintro ⟨declaration, cell⟩ hs
      obtain ⟨i, hi⟩ := Array.getElem?_of_mem hs
      cases cell with
      | reference v => simp [Slot.rename, Cell.rename, h i _ v hi rfl]
      | _ => rfl
    unfold rename
    rw [Array.map_congr_left fixed, Array.map_id]

@[simp] theorem rename_allocate (l : Layout) : (allocate l).rename ρ = allocate l := by
  simp [rename, allocate, Slot.rename, Cell.rename, Function.comp_def]

@[simp] theorem size_rename : (f.rename ρ).size = f.size := by
  simp [rename, size]

theorem slot_rename : (f.rename ρ).slot i = (f.slot i).map (Slot.rename ρ) := by
  unfold slot
  rw [f.size_rename]
  cases h : f.slots[i]? <;> simp [rename, h, Except.map]

@[simp] theorem slotType_rename : (f.rename ρ).slotType i = f.slotType i := by
  unfold slotType
  rw [f.slot_rename]
  cases f.slot i <;> rfl

theorem slotIn_rename (c : Category) :
    (f.rename ρ).slotIn i c = (f.slotIn i c).map (Slot.rename ρ) := by
  refine bind_eq_map (f.slot_rename ρ i) fun s => ?_
  show (if s.ty.category = c then _ else _) = _
  split <;> rfl

theorem setCell_rename (cell : Cell) :
    (f.rename ρ).setCell i (cell.rename ρ) = (f.setCell i cell).rename ρ := by
  simp only [rename, setCell, mk.injEq]
  apply Array.ext (by simp)
  intro j hj _
  simp only [Array.getElem_modify, Array.getElem_map]
  split <;> rfl

/-! ## Accesses -/

theorem readAs_rename (family : Family) :
    (f.rename ρ).readAs family i = (f.readAs family i).map (family.rename ρ) := by
  cases family with
  | bool =>
    show liftM ((f.rename ρ).readBool i) = (liftM (f.readBool i) : Except Fault Bool).map id
    rw [← lift_defect_map]
    refine congrArg liftM (bind_eq_map (f.slotIn_rename ρ i .bool) fun s => ?_)
    cases h : s.cell <;> simp only [Slot.rename, Cell.rename, h] <;> rfl
  | int =>
    show liftM ((f.rename ρ).readInt i) = (liftM (f.readInt i) : Except Fault Int64).map id
    rw [← lift_defect_map]
    refine congrArg liftM (bind_eq_map (f.slotIn_rename ρ i .int) fun s => ?_)
    cases h : s.cell <;> simp only [Slot.rename, Cell.rename, h] <;> rfl
  | float =>
    show liftM ((f.rename ρ).readFloat i) = (liftM (f.readFloat i) : Except Fault Float).map id
    rw [← lift_defect_map]
    refine congrArg liftM (bind_eq_map (f.slotIn_rename ρ i .float) fun s => ?_)
    cases h : s.cell <;> simp only [Slot.rename, Cell.rename, h] <;> rfl
  | function =>
    refine bind_eq_map (by rw [f.slotIn_rename, lift_defect_map]) fun s => ?_
    cases h : s.cell with
    | reference v => cases v <;> simp [Slot.rename, Cell.rename, h, Value.kind] <;> rfl
    | _ =>
      simp only [Slot.rename, Cell.rename, h]
      rfl
  | reference =>
    show liftM ((f.rename ρ).readReference i)
      = (liftM (f.readReference i) : Except Fault Value).map (Value.rename ρ)
    rw [← lift_defect_map]
    refine congrArg liftM (bind_eq_map (f.slotIn_rename ρ i .reference) fun s => ?_)
    cases h : s.cell <;> simp [Slot.rename, Cell.rename, h] <;> rfl

theorem cellFor_rename (d : Declaration) (family : Family) (x : Carrier family) :
    cellFor d family (family.rename ρ x) = (cellFor d family x).map (Cell.rename ρ) := by
  cases family with
  | bool | int | float => rfl
  | function =>
    by_cases h : d.ty = x.ty <;> simp [cellFor, Family.rename, h, Except.map, Cell.rename]
  | reference =>
    simp only [cellFor, Family.rename, Value.family_rename, Value.kind_rename, Value.ty_rename]
    split
    · rfl
    · split <;> rfl

theorem writeAs_rename (family : Family) (x : Carrier family) :
    (f.rename ρ).writeAs i family (family.rename ρ x) = (f.writeAs i family x).map (rename ρ) := by
  rw [writeAs_eq, writeAs_eq]
  refine bind_eq_map (by rw [f.slotIn_rename, lift_defect_map]) fun s => ?_
  refine bind_eq_map (cellFor_rename ρ s.toDeclaration family x) fun cell => ?_
  exact congrArg Except.ok (f.setCell_rename ρ i cell)

theorem writeFunction_rename (g : Function) :
    (f.rename ρ).writeFunction i (g.rename ρ) = (f.writeFunction i g).map (rename ρ) :=
  f.writeAs_rename ρ i .function g

theorem writeValue_rename (v : Value) :
    (f.rename ρ).writeValue i (v.rename ρ) = (f.writeValue i v).map (rename ρ) := by
  unfold writeValue
  rw [f.slotType_rename]
  refine bind_congr_map fun ty => ?_
  cases ty.category with
  | bool =>
    simp only [Value.expectBool_rename]
    exact bind_congr_map fun b => f.writeAs_rename ρ i .bool b
  | int =>
    simp only [Value.expectInt_rename]
    exact bind_congr_map fun n => f.writeAs_rename ρ i .int n
  | float =>
    simp only [Value.expectFloat_rename]
    exact bind_congr_map fun x => f.writeAs_rename ρ i .float x
  | reference => exact f.writeAs_rename ρ i .reference v

theorem copySlot_rename (t : Transfer) (g : Frame) :
    copySlot (f.rename ρ) t (g.rename ρ) = (copySlot f t g).map (rename ρ) := by
  refine bind_eq_map (by rw [g.slot_rename, lift_defect_map]) fun there => ?_
  refine bind_eq_map (by rw [f.slot_rename, lift_defect_map]) fun here => ?_
  refine bind_congr_map fun _ => ?_
  exact congrArg Except.ok (g.setCell_rename ρ t.target here.cell)

end Frame

/-! ## Capture and disclosure -/

theorem copySlots_rename (source : Frame) (ts : List Transfer) (target : Frame) :
    copySlots (source.rename ρ) ts (target.rename ρ)
      = (copySlots source ts target).map (Frame.rename ρ) := by
  induction ts generalizing target with
  | nil => rfl
  | cons t ts ih => exact bind_eq_map (source.copySlot_rename ρ t target) ih

/-- **The closure captured from a renamed frame** is the renamed closure. -/
theorem Capture.snapshot_rename (c : Capture) (frame : Frame) :
    c.snapshot (frame.rename ρ) = (c.snapshot frame).map (Frame.rename ρ) := by
  have copied := copySlots_rename ρ frame c.transfers (.allocate c.closure)
  rw [Frame.rename_allocate] at copied
  exact copied

theorem discloseSlot_rename (id : Nat) (closure : Frame) (t : Transfer) (frame : Frame) :
    discloseSlot (ρ.closures id) (closure.rename ρ) t (frame.rename ρ)
      = (discloseSlot id closure t frame).map (Frame.rename ρ) := by
  refine bind_eq_map (closure.copySlot_rename ρ t frame) fun g => ?_
  refine bind_eq_map (by rw [g.slot_rename, lift_defect_map]) fun s => ?_
  show (if ((s.cell.rename ρ).isDefined && s.ty.isFunction) = true then _ else _) = _
  rw [Cell.isDefined_rename]
  split
  · refine bind_eq_map (g.readAs_rename ρ t.target .function) fun f => ?_
    show (if (f.rename ρ).isSelfReference = true then _ else _) = _
    rw [f.isSelfReference_rename]
    split
    · exact g.writeFunction_rename ρ t.target (f.withClosure id)
    · rfl
  · rfl

end

end TypedEval
