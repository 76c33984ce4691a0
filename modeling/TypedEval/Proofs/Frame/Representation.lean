import TypedEval.Proofs.Typing.Admitted
import TypedEval.Run
import Mathlib.Logic.Function.Basic

/-!
# Frames after any operations

A frame keeps each slot in the category of its declared type, and nothing but the declaration says of
which type a reference is. `FrameOp` are the operations that change frames: writes of each family,
boxed writes, and copies from frame to frame. Whatever is asked of fresh frames, in whatever order,
the cells stay of their declared types (`FrameOp.after_shaped`), since an operation either is refused
and changes no frame, or puts into one slot what is of its type.

In such a frame a read goes wrong only for what was asked: the slot is not there, is of another
category, holds a reference that is no function, or was never written. All families read alike
(`Frame.readAs_eq`), so this is said of `Slot.contents` once.
-/

namespace TypedEval

/-! ## Cells by category -/

/-- The category that the contents of a slot are kept in, where there are any. -/
def Cell.category? : Cell → Option Category
  | .undefined => none
  | .bool _ => some .bool
  | .int _ => some .int
  | .float _ => some .float
  | .reference _ => some .reference

/-- The contents of a slot are in the category of its type, or there are none. -/
theorem Cell.Shaped.category {c : Cell} {ty : Ty} (hc : c.Shaped ty) :
    c = .undefined ∨ c.category? = some ty.category := by
  cases c with
  | undefined => exact .inl rfl
  | bool b => exact .inr (by rw [show ty = .bool from hc]; rfl)
  | int n => exact .inr (by rw [show ty = .int from hc]; rfl)
  | float x => exact .inr (by rw [show ty = .float from hc]; rfl)
  | reference v =>
    obtain ⟨hv, rfl⟩ := hc
    cases v with
    | bool b | int n | float x => cases hv
    | _ => exact .inr rfl

theorem Value.shaped_cell (v : Value) : v.cell.Shaped v.ty := by
  cases v <;> first | rfl | exact ⟨rfl, rfl⟩

/-! ## Boxed and unboxed -/

/-- A value can be unboxed just if it is the boxed form of the result. -/
theorem Family.unbox_eq_ok {family : Family} {v : Value} {x : Carrier family} :
    family.unbox v = .ok x ↔ family.box x = v := by
  constructor
  · intro h
    cases family with
    | reference => cases h; rfl
    | _ => cases v <;> cases h; rfl
  · rintro rfl
    exact unbox_box family x

/-- Every value can be unboxed in its own family. -/
theorem Value.exists_box (v : Value) : ∃ x, v.family.box x = v := by
  cases v with
  | bool b => exact ⟨b, rfl⟩
  | int n => exact ⟨n, rfl⟩
  | float x => exact ⟨x, rfl⟩
  | function f => exact ⟨f, rfl⟩
  | array a => exact ⟨.array a, rfl⟩
  | slice w => exact ⟨.slice w, rfl⟩
  | range r => exact ⟨.range r, rfl⟩

/-! ## Reading, in one form for all families -/

namespace Slot

/-- What a slot holds, read in a family. -/
def contents (s : Slot) : (family : Family) → Except Fault (Carrier family)
  | .bool =>
    match s.cell with
    | .bool b => .ok b
    | _ => .error (.defect (.undefinedSlot s.name))
  | .int =>
    match s.cell with
    | .int n => .ok n
    | _ => .error (.defect (.undefinedSlot s.name))
  | .float =>
    match s.cell with
    | .float x => .ok x
    | _ => .error (.defect (.undefinedSlot s.name))
  | .function =>
    match s.cell with
    | .reference (.function k) => .ok k
    | .undefined => .error (.defect (.undefinedSlot s.name))
    | .reference v => .error (.defect (.notFunctionSlot s.name v.kind))
    | _ => .error (.crash (.slotContents s.name))
  | .reference =>
    match s.cell with
    | .reference v => .ok v
    | _ => .error (.defect (.undefinedSlot s.name))

variable {s : Slot} {family : Family} {name : String}

/-- **A read in the category of a slot finds it undefined just if it is.** -/
theorem contents_eq_undefined
    (hs : s.cell = .undefined ∨ s.cell.category? = some family.category) :
    s.contents family = .error (.defect (.undefinedSlot name))
      ↔ s.cell = .undefined ∧ s.name = name := by
  obtain ⟨⟨shown, ty⟩, cell⟩ := s
  cases family <;> cases cell with
  | undefined => simp [contents]
  | reference v => cases v <;> simp_all [contents, Cell.category?, Family.category]
  | _ => simp_all [contents, Cell.category?, Family.category]

/-- **No slot read in its category holds what its category does not admit.** -/
theorem contents_ne_slotContents
    (hs : s.cell = .undefined ∨ s.cell.category? = some family.category) :
    s.contents family ≠ .error (.crash (.slotContents name)) := by
  obtain ⟨⟨shown, ty⟩, cell⟩ := s
  cases family <;> cases cell with
  | undefined => simp [contents]
  | reference v => cases v <;> simp [contents]
  | _ => simp_all [contents, Cell.category?, Family.category]

end Slot

namespace Frame

variable {f g : Frame} {i : Nat} {s : Slot} {family : Family}

/-- An access in a category reaches the slot, or is refused for the slot or for the category. -/
theorem slotIn_cases (f : Frame) (i : Nat) (c : Category) :
    (∃ s, f.slots[i]? = some s ∧ s.ty.category = c ∧ f.slotIn i c = .ok s) ∨
    (f.slots[i]? = none ∧ f.slotIn i c = .error (.slotOutside i f.size)) ∨
    ∃ s, f.slots[i]? = some s ∧ s.ty.category ≠ c ∧
      f.slotIn i c = .error (.slotCategory c s.name s.ty) := by
  unfold slotIn slot
  cases h : f.slots[i]? with
  | none => exact .inr (.inl ⟨rfl, rfl⟩)
  | some s =>
    by_cases hc : s.ty.category = c
    · exact .inl ⟨s, rfl, hc, if_pos hc⟩
    · exact .inr (.inr ⟨s, rfl, hc, if_neg hc⟩)

/-- **A read asks for the slot in its category, then for the contents.** -/
theorem readAs_eq (f : Frame) (family : Family) (i : Nat) :
    f.readAs family i = (liftM (f.slotIn i family.category) >>= fun s => s.contents family) := by
  obtain ⟨s, hs, hc, hslot⟩ | ⟨hs, hslot⟩ | ⟨s, hs, hc, hslot⟩ := f.slotIn_cases i family.category
  · rw [hslot]
    cases family with
    | bool =>
      show (liftM (f.readBool i) : Except Fault Bool) = s.contents .bool
      rw [readBool_of_slot hs hc, Slot.contents]
      cases s.cell <;> rfl
    | int =>
      show (liftM (f.readInt i) : Except Fault Int64) = s.contents .int
      rw [readInt_of_slot hs hc, Slot.contents]
      cases s.cell <;> rfl
    | float =>
      show (liftM (f.readFloat i) : Except Fault Float) = s.contents .float
      rw [readFloat_of_slot hs hc, Slot.contents]
      cases s.cell <;> rfl
    | function =>
      show f.readFunction i = s.contents .function
      refine (readFunction_of_slot hs hc).trans ?_
      unfold Slot.contents
      cases s.cell with
      | reference v => cases v <;> rfl
      | _ => rfl
    | reference =>
      show (liftM (f.readReference i) : Except Fault Value) = s.contents .reference
      rw [readReference_of_slot hs hc, Slot.contents]
      cases s.cell <;> rfl
  all_goals
    cases family <;>
      simp only [readAs, readBool, readInt, readFloat, readFunction, readReference,
        Family.category] at hslot ⊢ <;>
      rw [hslot] <;> rfl

theorem readAs_of_slot (hs : f.slots[i]? = some s) (hc : s.ty.category = family.category) :
    f.readAs family i = s.contents family := by
  rw [readAs_eq, slotIn_of_slot hs hc]
  rfl

/-! ## Frames of shaped cells -/

/-- **Every slot has the shape of its declared type.** A fresh frame has, and a write that passes its
checks keeps it. -/
def Shaped (f : Frame) : Prop :=
  ∀ (i : Nat) (s : Slot), f.slots[i]? = some s → s.cell.Shaped s.ty

theorem Shaped.allocate (l : Layout) : (Frame.allocate l).Shaped := by
  intro i s hs
  rw [cell_of_allocate hs]
  trivial

theorem Shaped.setCell (hf : f.Shaped) {cell : Cell}
    (hcell : ∀ s, f.slots[i]? = some s → cell.Shaped s.ty) : (f.setCell i cell).Shaped := by
  intro j s hs
  obtain hold | ⟨t, rfl, ht, rfl⟩ := slot_of_setCell hs
  · exact hf j s hold
  · exact hcell t ht

/-- A value in a slot of its type. -/
theorem Shaped.put (hf : f.Shaped) {v : Value} (hs : f.slots[i]? = some s) (hty : s.ty = v.ty) :
    (f.setCell i v.cell).Shaped := by
  refine hf.setCell fun t ht => ?_
  rw [hs] at ht
  cases ht
  rw [hty]
  exact v.shaped_cell

/-- A write that passes its checks keeps the shapes, whatever node it comes from. -/
theorem Shaped.writeAs (hf : f.Shaped) {x : Carrier family} (h : f.writeAs i family x = .ok g) :
    g.Shaped := by
  obtain ⟨rfl, s, hs, hty⟩ := setCell_of_writeAs h
  exact hf.put hs hty

/-- **A read finds a slot undefined just if the slot is there, of the category, and undefined.** -/
theorem Shaped.readAs_eq_undefined (hf : f.Shaped) (family : Family) (i : Nat) (name : String) :
    f.readAs family i = .error (.defect (.undefinedSlot name)) ↔
      ∃ s, f.slots[i]? = some s ∧ s.ty.category = family.category ∧ s.cell = .undefined ∧
        s.name = name := by
  obtain ⟨s, hs, hc, hslot⟩ | ⟨hs, hslot⟩ | ⟨s, hs, hc, hslot⟩ := f.slotIn_cases i family.category
  · have category := (hf i s hs).category
    rw [hc] at category
    rw [readAs_of_slot hs hc, Slot.contents_eq_undefined category]
    simp [hs, hc]
  · rw [readAs_eq, hslot]
    simp [hs, bind, Except.bind]
  · rw [readAs_eq, hslot]
    simp [hs, hc, bind, Except.bind]

/-- The same of a boxed read, which asks for no category. -/
theorem Shaped.readValue_eq_undefined (hf : f.Shaped) {name : String} :
    f.readValue i = .error (.undefinedSlot name) ↔
      ∃ s, f.slots[i]? = some s ∧ s.cell = .undefined ∧ s.name = name := by
  cases hs : f.slots[i]? with
  | none =>
    have refused : f.readValue i = .error (.slotOutside i f.size) := by
      simp only [readValue, slotType, slot, hs]
      rfl
    simp [refused]
  | some s =>
    have boxed := readValue_of_shaped hs (hf i s hs) rfl
    have typed := hf.readAs_eq_undefined s.ty.family i name
    simp only [hs, Option.some.injEq, exists_eq_left', Ty.category, true_and] at typed ⊢
    rw [← typed]
    cases hread : f.readAs s.ty.family i with
    | ok x =>
      rw [hread] at boxed
      cases hvalue : f.readValue i with
      | ok v => simp
      | error d => rw [hvalue] at boxed; cases boxed
    | error e =>
      rw [hread] at boxed
      cases hvalue : f.readValue i with
      | ok v => rw [hvalue] at boxed; cases boxed
      | error d => rw [hvalue] at boxed; cases boxed; simp

/-- A function read never meets a cell of another category. -/
theorem Shaped.readFunction_ne_slotContents (hf : f.Shaped) (i : Nat) (name : String) :
    f.readFunction i ≠ .error (.crash (.slotContents name)) := by
  show f.readAs .function i ≠ _
  obtain ⟨s, hs, hc, hslot⟩ | ⟨hs, hslot⟩ | ⟨s, hs, hc, hslot⟩ :=
    f.slotIn_cases i Family.function.category
  · have category := (hf i s hs).category
    rw [hc] at category
    rw [readAs_of_slot hs hc]
    exact Slot.contents_ne_slotContents category
  · rw [readAs_eq, hslot]
    exact fun h => (nomatch h)
  · rw [readAs_eq, hslot]
    exact fun h => (nomatch h)

/-! ## Boxed and typed accesses -/

/-- **A boxed write is the write of its type**, of the value unboxed for it. -/
theorem writeValue_eq_ok (hs : f.slots[i]? = some s) {v : Value} :
    f.writeValue i v = .ok g ↔
      ∃ x, s.ty.family.unbox v = .ok x ∧ f.writeAs i s.ty.family x = .ok g := by
  constructor
  · intro hw
    obtain ⟨rfl, t, ht, hty⟩ := setCell_of_writeValue hw
    rw [hs] at ht
    cases ht
    obtain ⟨x, hx⟩ : ∃ x, s.ty.family.box x = v := by
      rw [hty, Value.family_ty]
      exact v.exists_box
    subst hx
    exact ⟨x, Family.unbox_eq_ok.mpr rfl, writeAs_of_slot hs hty rfl⟩
  · rintro ⟨x, hx, hw⟩
    obtain ⟨rfl, t, ht, hty⟩ := setCell_of_writeAs hw
    rw [hs] at ht
    cases ht
    cases Family.unbox_eq_ok.mp hx
    rw [writeValue_of_slot hs hty]

/-! ## What was written is read -/

/-- A cell that a family is written in is read back in that family. -/
theorem contents_of_cellFor {d : Declaration} {x : Carrier family} {cell : Cell}
    (h : cellFor d family x = .ok cell) : Slot.contents ⟨d, cell⟩ family = .ok x := by
  cases family with
  | bool | int | float => cases h; rfl
  | function =>
    simp only [cellFor] at h
    split at h <;> cases h
    rfl
  | reference =>
    simp only [cellFor] at h
    split at h
    · cases h
    · split at h <;> cases h
      rfl

/-- **What was written in a family is read in it.** -/
theorem readAs_of_writeAs {x : Carrier family} (hw : f.writeAs i family x = .ok g) :
    g.readAs family i = .ok x := by
  rw [writeAs_eq] at hw
  obtain ⟨s, hslot, hw⟩ := bind_eq_ok.mp hw
  obtain ⟨cell, hcell, hw⟩ := bind_eq_ok.mp hw
  cases hw
  obtain ⟨hs, hc⟩ := slot_of_slotIn (lift_defect_eq_ok.mp hslot)
  rw [readAs_of_slot (slot_setCell_self cell hs) hc]
  exact contents_of_cellFor hcell

/-- A value in a slot of its type is read unboxed, in its family. -/
theorem readAs_put {v : Value} (hs : f.slots[i]? = some s) (hty : s.ty = v.ty) :
    ((f.setCell i v.cell).readAs v.family i).map v.family.box = .ok v := by
  obtain ⟨x, hx⟩ := v.exists_box
  have written : f.writeAs i v.family x = .ok (f.setCell i v.cell) := by
    rw [writeAs_of_slot hs (by rw [hx, hty]) (by rw [hty, Value.family_ty]), hx]
  rw [readAs_of_writeAs written]
  exact congrArg Except.ok hx

/-- A value in a slot of its type is read boxed. -/
theorem Shaped.readValue_put (hf : f.Shaped) {v : Value} (hs : f.slots[i]? = some s)
    (hty : s.ty = v.ty) : (f.setCell i v.cell).readValue i = .ok v := by
  have there := slot_setCell_self v.cell hs
  have boxed := readValue_of_shaped there (hf.put hs hty i _ there)
    (show s.ty.family = v.family by rw [← Value.family_ty, ← hty])
  rw [readAs_put hs hty] at boxed
  exact lift_defect_eq_ok.mp boxed

end Frame

/-! ## Operations on frames -/

/-- **An operation that may change a frame**, one of those named in `ι`. -/
inductive FrameOp (ι : Type) where
  /-- Writes what a node of a family hands over. -/
  | writeAs (frame : ι) (slot : Nat) (family : Family) (x : Carrier family)
  /-- Writes a boxed value. -/
  | writeValue (frame : ι) (slot : Nat) (v : Value)
  /-- Copies a slot of one frame to one of another. -/
  | copy (source target : ι) (t : Transfer)

namespace FrameOp

variable {ι : Type}

/-- The frame that an operation writes to. -/
def frame : FrameOp ι → ι
  | .writeAs k _ _ _ | .writeValue k _ _ | .copy _ k _ => k

/-- The slot that an operation writes to. -/
def slot : FrameOp ι → Nat
  | .writeAs _ i _ _ | .writeValue _ i _ => i
  | .copy _ _ t => t.target

/-- What an operation makes of the frame that it writes to. -/
def written (frames : ι → Frame) : FrameOp ι → Except Fault Frame
  | .writeAs k i family x => (frames k).writeAs i family x
  | .writeValue k i v => (frames k).writeValue i v
  | .copy source target t => Frame.copySlot (frames source) t (frames target)

variable {frames : ι → Frame} {op : FrameOp ι}

/-- **An operation changes one cell**, to a cell of the type of the slot. -/
theorem written_eq_ok (hf : ∀ k, (frames k).Shaped) {g : Frame} (hw : op.written frames = .ok g) :
    ∃ s cell, (frames op.frame).slots[op.slot]? = some s ∧ cell.Shaped s.ty ∧
      g = (frames op.frame).setCell op.slot cell := by
  have put {f : Frame} {i : Nat} {v : Value} (hf : f.Shaped)
      (h : g = f.setCell i v.cell ∧ ∃ s, f.slots[i]? = some s ∧ s.ty = v.ty) :
      ∃ s cell, f.slots[i]? = some s ∧ cell.Shaped s.ty ∧ g = f.setCell i cell := by
    obtain ⟨rfl, s, hs, hty⟩ := h
    exact ⟨s, v.cell, hs, hf.put hs hty i _ (Frame.slot_setCell_self _ hs), rfl⟩
  cases op with
  | writeAs k i family x => exact put (hf k) (Frame.setCell_of_writeAs hw)
  | writeValue k i v => exact put (hf k) (Frame.setCell_of_writeValue hw)
  | copy source target t =>
    obtain ⟨here, there, hhere, hthere, hty, rfl⟩ := Frame.copySlot_eq_ok hw
    exact ⟨there, here.cell, hthere, hty ▸ hf source _ here hhere, rfl⟩

variable [DecidableEq ι]

/-- Does an operation, unless it is refused. -/
def run (op : FrameOp ι) : Run (ι → Frame) Unit :=
  Run.update fun frames => return Function.update frames op.frame (← op.written frames)

/-- **The frames after operations on fresh ones**, those that were refused among them. -/
def after (layouts : ι → Layout) (ops : List (FrameOp ι)) : ι → Frame :=
  ops.foldl (fun frames op => (op.run frames).2) fun k => .allocate (layouts k)

/-- An operation is refused and changes nothing, or gives the frame that was written. -/
theorem run_cases (op : FrameOp ι) (frames : ι → Frame) :
    (∃ e, op.run frames = (.error (.fault e []), frames)) ∨
    ∃ g, op.written frames = .ok g ∧
      op.run frames = (.ok (), Function.update frames op.frame g) := by
  cases h : op.written frames with
  | error e => exact .inl ⟨e, by simp [run, Run.update, h, bind, Except.bind]⟩
  | ok g =>
    exact .inr ⟨g, rfl, by simp [run, Run.update, h, bind, Except.bind, pure, Except.pure]⟩

/-- **One operation** keeps the layout and the shape of every frame. -/
theorem run_shaped (hf : ∀ k, (frames k).Shaped) (op : FrameOp ι) (k : ι) :
    ((op.run frames).2 k).layout = (frames k).layout ∧ ((op.run frames).2 k).Shaped := by
  obtain ⟨e, h⟩ | ⟨g, hw, h⟩ := op.run_cases frames
  · rw [h]
    exact ⟨rfl, hf k⟩
  · rw [h]
    obtain ⟨s, cell, hs, hcell, rfl⟩ := written_eq_ok hf hw
    by_cases hk : k = op.frame
    · subst hk
      simp only [Function.update_self, Frame.layout_setCell, true_and]
      refine (hf _).setCell fun t ht => ?_
      rw [hs] at ht
      cases ht
      exact hcell
    · simp only [Function.update_of_ne hk, true_and]
      exact hf k

/-- **Any operations** keep them. -/
theorem after_shaped (layouts : ι → Layout) (ops : List (FrameOp ι)) (k : ι) :
    (after layouts ops k).layout = layouts k ∧ (after layouts ops k).Shaped := by
  suffices h : ∀ frames : ι → Frame, (∀ k, (frames k).layout = layouts k ∧ (frames k).Shaped) →
      ∀ k, (ops.foldl (fun frames op => (op.run frames).2) frames k).layout = layouts k ∧
        (ops.foldl (fun frames op => (op.run frames).2) frames k).Shaped from
    h _ (fun k => ⟨Frame.layout_allocate _, .allocate _⟩) k
  induction ops with
  | nil => exact fun frames hf => hf
  | cons op ops ih =>
    intro frames hf
    refine ih _ fun k => ?_
    obtain ⟨hlayout, hshaped⟩ := op.run_shaped (fun k => (hf k).2) k
    exact ⟨hlayout.trans (hf k).1, hshaped⟩

end FrameOp

/-! ## What holds of such frames -/

/-- **A frame represents a layout**: one cell for each declared slot, undefined or in the category of
the declared type, and a reference of that very type. -/
structure Frame.Represents (f : Frame) (l : Layout) : Prop where
  size : f.size = l.slots.size
  slots : ∀ (i : Nat) (d : Declaration), l.slots[i]? = some d →
    ∃ s, f.slots[i]? = some s ∧ s.toDeclaration = d ∧
      (s.cell = .undefined ∨ s.cell.category? = some d.ty.category) ∧
      ∀ v, s.cell = .reference v → v.ty = d.ty

/-- **The accesses of a frame agree**: the boxed ones with those of the declared type, a read finds
a slot undefined just if it was never written, and no read of a function meets an unboxed cell. -/
structure Frame.AccessesAgree (f : Frame) : Prop where
  readValue : ∀ (i : Nat) (s : Slot), f.slots[i]? = some s →
    (liftM (f.readValue i) : Except Fault Value)
      = (f.readAs s.ty.family i).map s.ty.family.box
  writeValue : ∀ (i : Nat) (s : Slot) (v : Value) (g : Frame), f.slots[i]? = some s →
    (f.writeValue i v = .ok g ↔
      ∃ x, s.ty.family.unbox v = .ok x ∧ f.writeAs i s.ty.family x = .ok g)
  undefined : ∀ (family : Family) (i : Nat) (name : String),
    f.readAs family i = .error (.defect (.undefinedSlot name)) ↔
      ∃ s, f.slots[i]? = some s ∧ s.ty.category = family.category ∧ s.cell = .undefined ∧
        s.name = name
  undefinedValue : ∀ (i : Nat) (name : String),
    f.readValue i = .error (.undefinedSlot name) ↔
      ∃ s, f.slots[i]? = some s ∧ s.cell = .undefined ∧ s.name = name
  readFunction : ∀ (i : Nat) (name : String),
    f.readFunction i ≠ .error (.crash (.slotContents name))

theorem Frame.Shaped.represents {f : Frame} (hf : f.Shaped) : f.Represents f.layout where
  size := by simp [size, layout]
  slots i d hd := by
    obtain ⟨s, hs, rfl⟩ : ∃ s, f.slots[i]? = some s ∧ s.toDeclaration = d := by
      simpa [layout] using hd
    refine ⟨s, hs, rfl, (hf i s hs).category, fun v hv => ?_⟩
    have shaped := hf i s hs
    rw [hv] at shaped
    exact shaped.2

theorem Frame.Shaped.accessesAgree {f : Frame} (hf : f.Shaped) : f.AccessesAgree where
  readValue i s hs := readValue_of_shaped hs (hf i s hs) rfl
  writeValue _ _ _ _ hs := writeValue_eq_ok hs
  undefined := hf.readAs_eq_undefined
  undefinedValue _ _ := hf.readValue_eq_undefined
  readFunction := hf.readFunction_ne_slotContents

namespace FrameOp

variable {ι : Type}

/-- **What an operation wrote is read back**: typed, in the family of the value, and boxed. What was
copied is what the other frame held, undefined or not, in a slot of one type. -/
def ReadsBack (before after : ι → Frame) : FrameOp ι → Prop
  | .writeAs k i family x =>
    (after k).readAs family i = .ok x ∧
    ((after k).readAs (family.box x).family i).map (family.box x).family.box
      = .ok (family.box x) ∧
    (after k).readValue i = .ok (family.box x)
  | .writeValue k i v =>
    ((after k).readAs v.family i).map v.family.box = .ok v ∧ (after k).readValue i = .ok v
  | .copy source target t =>
    ∃ here there, (before source).slots[t.source]? = some here ∧
      (after target).slots[t.target]? = some there ∧ there.ty = here.ty ∧ there.cell = here.cell

/-- **What an operation does**: it is refused and leaves every frame as it was, or it changes the
slot that it writes and no other, of this frame or another, and what it wrote is read back. -/
def Effect (op : FrameOp ι) (before : ι → Frame) : Except Halt Unit × (ι → Frame) → Prop
  | (.error _, after) => after = before
  | (.ok (), after) =>
    (∀ k i, (k ≠ op.frame ∨ i ≠ op.slot) → (after k).slots[i]? = (before k).slots[i]?) ∧
    op.ReadsBack before after

variable [DecidableEq ι]

theorem effect_run {frames : ι → Frame} (hf : ∀ k, (frames k).Shaped) (op : FrameOp ι) :
    op.Effect frames (op.run frames) := by
  obtain ⟨e, h⟩ | ⟨g, hw, h⟩ := op.run_cases frames
  · rw [h]
    rfl
  rw [h]
  refine ⟨fun k i other => ?_, ?_⟩
  · obtain ⟨s, cell, hs, hcell, rfl⟩ := written_eq_ok hf hw
    by_cases hk : k = op.frame
    · subst hk
      rw [Function.update_self]
      exact Frame.slot_setCell_ne cell (other.resolve_left (· rfl)).symm
    · rw [Function.update_of_ne hk]
  · cases op with
    | writeAs k i family x =>
      obtain ⟨rfl, s, hs, hty⟩ := Frame.setCell_of_writeAs hw
      simp only [ReadsBack, frame, Function.update_self]
      exact ⟨Frame.readAs_of_writeAs hw, Frame.readAs_put hs hty, (hf k).readValue_put hs hty⟩
    | writeValue k i v =>
      obtain ⟨rfl, s, hs, hty⟩ := Frame.setCell_of_writeValue hw
      simp only [ReadsBack, frame, Function.update_self]
      exact ⟨Frame.readAs_put hs hty, (hf k).readValue_put hs hty⟩
    | copy source target t =>
      obtain ⟨here, there, hhere, hthere, hty, rfl⟩ := Frame.copySlot_eq_ok hw
      refine ⟨here, { there with cell := here.cell }, hhere, ?_, hty, rfl⟩
      simp only [frame, Function.update_self]
      exact Frame.slot_setCell_self _ hthere

/-- **After any operations on fresh frames**, refused ones among them, every frame represents its
layout and its accesses agree, and every further operation has its effect. -/
theorem after_represents (layouts : ι → Layout) (ops : List (FrameOp ι)) :
    (∀ k, (after layouts ops k).Represents (layouts k) ∧ (after layouts ops k).AccessesAgree) ∧
    ∀ op : FrameOp ι, op.Effect (after layouts ops) (op.run (after layouts ops)) := by
  have shaped k := after_shaped layouts ops k
  refine ⟨fun k => ⟨?_, (shaped k).2.accessesAgree⟩, effect_run fun k => (shaped k).2⟩
  rw [← (shaped k).1]
  exact (shaped k).2.represents

end FrameOp

end TypedEval
