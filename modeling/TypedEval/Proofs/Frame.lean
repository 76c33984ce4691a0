import TypedEval.Frame
import TypedEval.Proofs.Check

/-!
# Laws of frames

A frame is seen through its slots: `slots[i]?` is the declaration of slot `i` together with its cell.
Every access is an access to one slot, a write replaces one cell and keeps all declarations, and what
was written is what is read.
-/

namespace TypedEval

namespace Value

/-- The cell that a value is kept in: primitives unboxed, the rest as references. -/
def cell : Value → Cell
  | .bool b => .bool b
  | .int n => .int n
  | .float x => .float x
  | v => .reference v

theorem cell_of_not_primitive {v : Value} (h : v.family.isPrimitive = false) :
    v.cell = .reference v := by
  cases v <;> first | rfl | cases h

end Value

namespace Frame

variable {f g : Frame} {i j : Nat} {s : Slot} {c : Category}

theorem slot_eq_ok : f.slot i = .ok s ↔ f.slots[i]? = some s := by
  unfold slot
  cases f.slots[i]? with
  | none => exact ⟨fun h => (nomatch h), fun h => (nomatch h)⟩
  | some t => simp only [Except.ok.injEq, Option.some.injEq]

/-- A slot that is there can be accessed in the category of its type. -/
theorem slotIn_of_slot (h : f.slots[i]? = some s) (hc : s.ty.category = c) :
    f.slotIn i c = .ok s := by
  unfold slotIn
  rw [slot_eq_ok.mpr h]
  exact if_pos hc

theorem slotType_of_slot (h : f.slots[i]? = some s) : f.slotType i = .ok s.ty := by
  unfold slotType
  rw [slot_eq_ok.mpr h]
  rfl

/-- An access in a category reached a slot whose type is stored in it. -/
theorem slot_of_slotIn (h : f.slotIn i c = .ok s) : f.slots[i]? = some s ∧ s.ty.category = c := by
  unfold slotIn at h
  obtain ⟨t, ht, h⟩ := bind_eq_ok.mp h
  split at h
  · next hc => cases h; exact ⟨slot_eq_ok.mp ht, hc⟩
  · cases h

/-! ## One cell changes -/

@[simp] theorem layout_allocate (l : Layout) : (allocate l).layout = l := by
  simp [layout, allocate, Function.comp_def]

@[simp] theorem layout_setCell (f : Frame) (i : Nat) (cell : Cell) :
    (f.setCell i cell).layout = f.layout := by
  simp only [layout, setCell, Layout.mk.injEq]
  apply Array.ext (by simp)
  intro j hj _
  simp only [Array.getElem_map, Array.getElem_modify]
  split <;> rfl

theorem slot_setCell_self (cell : Cell) (h : f.slots[i]? = some s) :
    (f.setCell i cell).slots[i]? = some { s with cell } := by
  simp [setCell, Array.getElem?_modify, h]

theorem slot_setCell_ne (cell : Cell) (h : i ≠ j) :
    (f.setCell i cell).slots[j]? = f.slots[j]? := by
  simp [setCell, Array.getElem?_modify, h]

/-- A slot of a changed frame is the changed one or a slot of the old frame. -/
theorem slot_of_setCell {cell : Cell} (h : (f.setCell i cell).slots[j]? = some s) :
    f.slots[j]? = some s ∨ ∃ t, i = j ∧ f.slots[j]? = some t ∧ s = { t with cell } := by
  by_cases hij : i = j
  · subst hij
    cases ht : f.slots[i]? with
    | none => simp [setCell, Array.getElem?_modify, ht] at h
    | some t =>
      rw [slot_setCell_self cell ht] at h
      cases h
      exact .inr ⟨t, rfl, rfl, rfl⟩
  · rw [slot_setCell_ne cell hij] at h
    exact .inl h

/-- A slot of a fresh frame is undefined. -/
theorem cell_of_allocate {l : Layout} (h : (allocate l).slots[i]? = some s) :
    s.cell = .undefined := by
  simp only [allocate, Array.getElem?_map, Option.map_eq_some_iff] at h
  obtain ⟨_, _, rfl⟩ := h
  rfl

/-- The layout declares what the slot declares. -/
theorem declares_of_slot (h : f.slots[i]? = some s) : f.layout.Declares i s.ty :=
  ⟨s.toDeclaration, by simp [layout, h], rfl⟩

/-- A declared slot is there. -/
theorem slot_of_declares {ty : Ty} (h : f.layout.Declares i ty) :
    ∃ s, f.slots[i]? = some s ∧ s.ty = ty := by
  obtain ⟨d, hd, rfl⟩ := h
  simp only [layout, Array.getElem?_map, Option.map_eq_some_iff] at hd
  obtain ⟨s, hs, rfl⟩ := hd
  exact ⟨s, hs, rfl⟩

/-! ## Reading a slot that is there -/

theorem readBool_of_slot (h : f.slots[i]? = some s) (hc : s.ty.category = .bool) :
    f.readBool i = match s.cell with
      | .bool b => .ok b
      | _ => .error (.undefinedSlot s.name) := by
  unfold readBool
  rw [slotIn_of_slot h hc]
  rfl

theorem readInt_of_slot (h : f.slots[i]? = some s) (hc : s.ty.category = .int) :
    f.readInt i = match s.cell with
      | .int n => .ok n
      | _ => .error (.undefinedSlot s.name) := by
  unfold readInt
  rw [slotIn_of_slot h hc]
  rfl

theorem readFloat_of_slot (h : f.slots[i]? = some s) (hc : s.ty.category = .float) :
    f.readFloat i = match s.cell with
      | .float x => .ok x
      | _ => .error (.undefinedSlot s.name) := by
  unfold readFloat
  rw [slotIn_of_slot h hc]
  rfl

theorem readFunction_of_slot (h : f.slots[i]? = some s) (hc : s.ty.category = .reference) :
    f.readFunction i = match s.cell with
      | .reference (.function g) => .ok g
      | .undefined => .error (.defect (.undefinedSlot s.name))
      | .reference v => .error (.defect (.notFunctionSlot s.name v.kind))
      | _ => .error (.crash (.slotContents s.name)) := by
  unfold readFunction
  rw [slotIn_of_slot h hc]
  rfl

theorem readReference_of_slot (h : f.slots[i]? = some s) (hc : s.ty.category = .reference) :
    f.readReference i = match s.cell with
      | .reference v => .ok v
      | _ => .error (.undefinedSlot s.name) := by
  unfold readReference
  rw [slotIn_of_slot h hc]
  rfl

/-! ## Writing to a slot that is there -/

theorem writeBool_of_slot (h : f.slots[i]? = some s) (hc : s.ty.category = .bool) (b : Bool) :
    f.writeBool i b = .ok (f.setCell i (.bool b)) := by
  unfold writeBool
  rw [slotIn_of_slot h hc]
  rfl

theorem writeInt_of_slot (h : f.slots[i]? = some s) (hc : s.ty.category = .int) (n : Int64) :
    f.writeInt i n = .ok (f.setCell i (.int n)) := by
  unfold writeInt
  rw [slotIn_of_slot h hc]
  rfl

theorem writeFloat_of_slot (h : f.slots[i]? = some s) (hc : s.ty.category = .float) (x : Float) :
    f.writeFloat i x = .ok (f.setCell i (.float x)) := by
  unfold writeFloat
  rw [slotIn_of_slot h hc]
  rfl

/-- A function can be written to a slot with its type. -/
theorem writeFunction_of_slot (h : f.slots[i]? = some s) {k : Function} (hty : s.ty = k.ty) :
    f.writeFunction i k = .ok (f.setCell i (.reference (.function k))) := by
  unfold writeFunction
  rw [slotIn_of_slot h (by rw [hty]; rfl)]
  exact if_pos hty

theorem writeReference_of_slot (h : f.slots[i]? = some s) {v : Value}
    (hp : v.family.isPrimitive = false) (hty : s.ty = v.ty) :
    f.writeReference i v = .ok (f.setCell i (.reference v)) := by
  have hc : s.ty.category = .reference := by
    rw [hty, Ty.category, Value.family_ty]
    cases hv : v.family <;> simp_all [Family.isPrimitive, Family.category]
  unfold writeReference
  rw [slotIn_of_slot h hc]
  show (if v.family.isPrimitive = true then _ else if s.ty = v.ty then _ else _) = _
  rw [hp, if_pos hty]
  rfl

/-- What a node hands over is written to a slot of its type, in the cell of its boxed form. -/
theorem writeAs_of_slot (h : f.slots[i]? = some s) {family : Family} {x : Carrier family}
    (hty : s.ty = (family.box x).ty) (hfamily : s.ty.family = family) :
    f.writeAs i family x = .ok (f.setCell i (family.box x).cell) := by
  have hc : s.ty.category = family.category := by rw [Ty.category, hfamily]
  cases family with
  | bool => exact writeBool_of_slot h hc x
  | int => exact writeInt_of_slot h hc x
  | float => exact writeFloat_of_slot h hc x
  | function => exact writeFunction_of_slot h hty
  | reference =>
    have hp : x.family.isPrimitive = false := by
      rw [← Value.family_ty, show x.ty = s.ty from hty.symm, hfamily]
      rfl
    show f.writeReference i x = .ok (f.setCell i x.cell)
    rw [writeReference_of_slot h hp hty, Value.cell_of_not_primitive hp]

/-- A boxed value is written to a slot of its type. -/
theorem writeValue_of_slot (h : f.slots[i]? = some s) {v : Value} (hty : s.ty = v.ty) :
    f.writeValue i v = .ok (f.setCell i v.cell) := by
  unfold writeValue
  rw [slotType_of_slot h, lift_defect_ok, ok_bind, hty]
  cases v with
  | bool b => exact writeBool_of_slot h (by rw [hty]; rfl) b
  | int n => exact writeInt_of_slot h (by rw [hty]; rfl) n
  | float x => exact writeFloat_of_slot h (by rw [hty]; rfl) x
  | function k => exact writeReference_of_slot h rfl hty
  | array a => exact writeReference_of_slot h rfl hty
  | slice w => exact writeReference_of_slot h rfl hty
  | range r => exact writeReference_of_slot h rfl hty

/-! ## Copying -/

/-- A second change of a cell replaces the first. -/
theorem setCell_setCell (f : Frame) (i : Nat) (c d : Cell) :
    (f.setCell i c).setCell i d = f.setCell i d := by
  simp only [setCell, mk.injEq]
  apply Array.ext (by simp)
  intro j hj _
  simp only [Array.getElem_modify]
  split <;> rfl

/-- A slot is copied to a slot of its type. -/
theorem copySlot_of_slots {t : Transfer} {there : Slot} (h : f.slots[t.source]? = some s)
    (ht : g.slots[t.target]? = some there) (hty : there.ty = s.ty) :
    copySlot f t g = .ok (g.setCell t.target s.cell) := by
  unfold copySlot
  rw [slot_eq_ok.mpr ht, slot_eq_ok.mpr h]
  have same : Ty.expectSame s.name there.ty s.ty = .ok () := Ty.expectSame_eq_ok.mpr hty
  show ((liftM (Ty.expectSame s.name there.ty s.ty) : Except Fault Unit) >>= fun _ =>
    pure (g.setCell t.target s.cell)) = _
  rw [same]
  rfl

/-! ## Functions in slots -/

/-- A written function changed one cell of a slot with its type. -/
theorem setCell_of_writeFunction {h : Function} (hw : f.writeFunction i h = .ok g) :
    g = f.setCell i (.reference (.function h)) ∧ ∃ s, f.slots[i]? = some s ∧ s.ty = h.ty := by
  unfold writeFunction at hw
  obtain ⟨s, hs, hw⟩ := bind_eq_ok.mp hw
  obtain ⟨hs, _⟩ := slot_of_slotIn (lift_defect_eq_ok.mp hs)
  split at hw
  · next hty => cases hw; exact ⟨rfl, s, hs, hty⟩
  · cases hw

/-- What was written as a function is read as that function. -/
theorem readFunction_of_writeFunction {h : Function} (hw : f.writeFunction i h = .ok g) :
    g.readFunction i = .ok h := by
  obtain ⟨rfl, s, hs, hty⟩ := setCell_of_writeFunction hw
  rw [readFunction_of_slot (slot_setCell_self _ hs) (by rw [hty]; rfl)]

/-! ## Writing, in one form for all families -/

/-- The cell for what a node of a family hands over, in a slot of a declaration. -/
def cellFor (d : Declaration) : (family : Family) → Carrier family → Except Fault Cell
  | .bool, b => .ok (.bool b)
  | .int, n => .ok (.int n)
  | .float, x => .ok (.float x)
  | .function, k =>
    if d.ty = k.ty then .ok (.reference (.function k))
    else .error (.assertion (.functionSlotType d.name))
  | .reference, v =>
    if v.family.isPrimitive then .error (.defect (.primitiveInReference v.kind d.name))
    else if d.ty = v.ty then .ok (.reference v)
    else .error (.assertion (.slotType d.name))

/-- **A write asks for the slot in its category, then for the cell**, and changes that cell. -/
theorem writeAs_eq (f : Frame) (i : Nat) (family : Family) (x : Carrier family) :
    f.writeAs i family x = (do
      let s ← f.slotIn i family.category
      let cell ← cellFor s.toDeclaration family x
      return f.setCell i cell) := by
  cases family with
  | bool => cases h : f.slotIn i .bool <;> simp only [writeAs, writeBool, Family.category, h] <;> rfl
  | int => cases h : f.slotIn i .int <;> simp only [writeAs, writeInt, Family.category, h] <;> rfl
  | float =>
    cases h : f.slotIn i .float <;> simp only [writeAs, writeFloat, Family.category, h] <;> rfl
  | function =>
    cases h : f.slotIn i .reference with
    | error e => simp only [writeAs, writeFunction, Family.category, h]; rfl
    | ok s =>
      by_cases hty : s.ty = x.ty <;>
        simp [writeAs, writeFunction, Family.category, h, cellFor, hty, bind, Except.bind, throw,
          throwThe, MonadExceptOf.throw]
  | reference =>
    cases h : f.slotIn i .reference with
    | error e => simp only [writeAs, writeReference, Family.category, h]; rfl
    | ok s =>
      by_cases hp : x.family.isPrimitive = true <;> by_cases hty : s.ty = x.ty <;>
        simp [writeAs, writeReference, Family.category, h, cellFor, hty, hp, bind, Except.bind,
          throw, throwThe, MonadExceptOf.throw]

end Frame

/-- The boxed form of what a slot holds. -/
def Cell.value? : Cell → Option Value
  | .undefined => none
  | .bool b => some (.bool b)
  | .int n => some (.int n)
  | .float x => some (.float x)
  | .reference v => some v

/-! ## What an access that passed has done -/

namespace Frame

variable {f g h : Frame} {i : Nat}

/-- A value that was read in a family is what the slot holds. -/
theorem readAs_eq_ok {family : Family} {x : Carrier family} (hr : f.readAs family i = .ok x) :
    ∃ s, f.slots[i]? = some s ∧ s.cell.value? = some (family.box x) := by
  cases family with
  | bool | int | float | reference =>
    obtain ⟨s, hs, hr⟩ := bind_eq_ok.mp (lift_defect_eq_ok.mp hr)
    obtain ⟨hs, hc⟩ := slot_of_slotIn hs
    cases hcell : s.cell <;> rw [hcell] at hr <;> cases hr
    exact ⟨s, hs, by rw [hcell]; rfl⟩
  | function =>
    obtain ⟨s, hs, hr⟩ := bind_eq_ok.mp hr
    obtain ⟨hs, hc⟩ := slot_of_slotIn (lift_defect_eq_ok.mp hs)
    cases hcell : s.cell with
    | reference v =>
      rw [hcell] at hr
      cases v <;> cases hr
      exact ⟨s, hs, by rw [hcell]; rfl⟩
    | _ => rw [hcell] at hr; cases hr

/-- A function that was read is what the slot holds. -/
theorem readFunction_eq_ok {k : Function} (hr : f.readFunction i = .ok k) :
    ∃ s, f.slots[i]? = some s ∧ s.cell = .reference (.function k) := by
  have hr : f.readAs .function i = .ok k := hr
  obtain ⟨s, hs, hvalue⟩ := readAs_eq_ok hr
  refine ⟨s, hs, ?_⟩
  cases hc : s.cell <;> rw [hc] at hvalue <;> cases hvalue
  rfl

/-- A reference that was written changed one cell of a slot with its type. -/
theorem setCell_of_writeReference {v : Value} (hw : f.writeReference i v = .ok g) :
    g = f.setCell i v.cell ∧ ∃ s, f.slots[i]? = some s ∧ s.ty = v.ty := by
  unfold writeReference at hw
  obtain ⟨s, hs, hw⟩ := bind_eq_ok.mp hw
  obtain ⟨hs, _⟩ := slot_of_slotIn (lift_defect_eq_ok.mp hs)
  split at hw
  · cases hw
  · next hp =>
    split at hw
    · next hty =>
      cases hw
      exact ⟨by rw [Value.cell_of_not_primitive (by simpa using hp)], s, hs, hty⟩
    · cases hw

/-- What a node handed over and was written changed one cell of a slot with its type. -/
theorem setCell_of_writeAs {family : Family} {x : Carrier family}
    (hw : f.writeAs i family x = .ok g) :
    g = f.setCell i (family.box x).cell ∧ ∃ s, f.slots[i]? = some s ∧ s.ty = (family.box x).ty := by
  cases family with
  | bool =>
    obtain ⟨_, hs, hw⟩ := bind_eq_ok.mp hw
    obtain ⟨s, hs, _⟩ := bind_eq_ok.mp hs
    obtain ⟨hs, hc⟩ := slot_of_slotIn (lift_defect_eq_ok.mp hs)
    cases hw
    exact ⟨rfl, s, hs, Ty.eq_bool_of_category hc.symm⟩
  | int =>
    obtain ⟨_, hs, hw⟩ := bind_eq_ok.mp hw
    obtain ⟨s, hs, _⟩ := bind_eq_ok.mp hs
    obtain ⟨hs, hc⟩ := slot_of_slotIn (lift_defect_eq_ok.mp hs)
    cases hw
    exact ⟨rfl, s, hs, Ty.eq_int_of_category hc.symm⟩
  | float =>
    obtain ⟨_, hs, hw⟩ := bind_eq_ok.mp hw
    obtain ⟨s, hs, _⟩ := bind_eq_ok.mp hs
    obtain ⟨hs, hc⟩ := slot_of_slotIn (lift_defect_eq_ok.mp hs)
    cases hw
    exact ⟨rfl, s, hs, Ty.eq_float_of_category hc.symm⟩
  | function => exact setCell_of_writeFunction hw
  | reference => exact setCell_of_writeReference hw

/-- A boxed value that was written changed one cell of a slot with its type. -/
theorem setCell_of_writeValue {v : Value} (hw : f.writeValue i v = .ok g) :
    g = f.setCell i v.cell ∧ ∃ s, f.slots[i]? = some s ∧ s.ty = v.ty := by
  unfold writeValue at hw
  obtain ⟨ty, -, hw⟩ := bind_eq_ok.mp hw
  split at hw
  · obtain ⟨b, hb, hw⟩ := bind_eq_ok.mp hw
    cases v <;> cases lift_defect_eq_ok.mp hb
    have hw : f.writeAs i .bool b = .ok g := hw
    exact setCell_of_writeAs hw
  · obtain ⟨n, hn, hw⟩ := bind_eq_ok.mp hw
    cases v <;> cases lift_defect_eq_ok.mp hn
    have hw : f.writeAs i .int n = .ok g := hw
    exact setCell_of_writeAs hw
  · obtain ⟨x, hx, hw⟩ := bind_eq_ok.mp hw
    cases v <;> cases lift_defect_eq_ok.mp hx
    have hw : f.writeAs i .float x = .ok g := hw
    exact setCell_of_writeAs hw
  · exact setCell_of_writeReference hw

/-- A slot that was copied is in a slot of its type. -/
theorem copySlot_eq_ok {t : Transfer} (hc : copySlot f t g = .ok h) :
    ∃ here there, f.slots[t.source]? = some here ∧ g.slots[t.target]? = some there ∧
      there.ty = here.ty ∧ h = g.setCell t.target here.cell := by
  unfold copySlot at hc
  obtain ⟨there, hthere, hc⟩ := bind_eq_ok.mp hc
  obtain ⟨here, hhere, hc⟩ := bind_eq_ok.mp hc
  obtain ⟨_, hty, hc⟩ := bind_eq_ok.mp hc
  cases hc
  exact ⟨here, there, slot_eq_ok.mp (lift_defect_eq_ok.mp hhere),
    slot_eq_ok.mp (lift_defect_eq_ok.mp hthere),
    Ty.expectSame_eq_ok.mp (lift_defect_eq_ok.mp hty), rfl⟩

end Frame

end TypedEval
