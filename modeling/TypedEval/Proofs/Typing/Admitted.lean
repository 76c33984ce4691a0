import TypedEval.Proofs.Discipline
import TypedEval.Proofs.Node.Accepted
import TypedEval.Proofs.Value.Sequences

/-!
# Frames of a layout

What a slot holds is of the slot's declared type, over any choice of the functions that are admitted
in values. Nothing is asked of the closures that functions name, so this is kept by every write that
passes its check, whatever is written. It is enough for the accesses of the different families to be
one: a slot is read boxed as it is read in the family of its type (`Frame.Of.readValue_eq`).
-/

namespace TypedEval

/-- **The contents of a slot are of its declared type**; primitives are unboxed. -/
def Cell.Of (good : Function → Prop) (ty : Ty) : Cell → Prop
  | .undefined => True
  | .bool _ => ty = .bool
  | .int _ => ty = .int
  | .float _ => ty = .float
  | .reference v => v.family.isPrimitive = false ∧ v.Of good ty

/-- The contents of a slot have its declared type, whatever may stand inside of arrays. -/
def Cell.Shaped (ty : Ty) : Cell → Prop
  | .undefined => True
  | .bool _ => ty = .bool
  | .int _ => ty = .int
  | .float _ => ty = .float
  | .reference v => v.family.isPrimitive = false ∧ v.ty = ty

/-- **A frame is of its layout**: every slot holds what is of its type. -/
def Frame.Of (good : Function → Prop) (f : Frame) : Prop :=
  ∀ (i : Nat) (s : Slot), f.slots[i]? = some s → s.cell.Of good s.ty

/-- The same of every closure of a store. -/
def Store.Of (good : Function → Prop) (s : Store) : Prop :=
  ∀ (id : Nat) (frame : Frame), s.closures[id]? = some frame → frame.Of good

/-- **An activation is of a layout**: its frame is, and its closures are of theirs. -/
structure Activation.Of (good : Function → Prop) (layout : Layout) (a : Activation) : Prop where
  layout : a.frame.layout = layout
  frame : a.frame.Of good
  store : a.store.Of good

variable {good : Function → Prop} {ty : Ty}

/-! ## Cells -/

theorem Cell.Of.shaped {c : Cell} (hc : c.Of good ty) : c.Shaped ty := by
  cases c with
  | reference v => exact ⟨hc.1, hc.2.ty⟩
  | _ => exact hc

/-- What is read from a slot is of its type. -/
theorem Cell.Of.value {c : Cell} (hc : c.Of good ty) {v : Value} (h : c.value? = some v) :
    v.Of good ty := by
  cases c with
  | undefined => cases h
  | bool b => cases h; exact ⟨hc.symm, .bool b⟩
  | int n => cases h; exact ⟨hc.symm, .int n⟩
  | float x => cases h; exact ⟨hc.symm, .float x⟩
  | reference w => cases h; exact hc.2

/-- What is written to a slot of its type. -/
theorem Value.Of.cell {v : Value} (hv : v.Of good ty) : v.cell.Of good ty := by
  obtain ⟨rfl, hw⟩ := hv
  cases v with
  | bool b => rfl
  | int n => rfl
  | float x => rfl
  | function f => exact ⟨rfl, rfl, hw⟩
  | array a => exact ⟨rfl, rfl, hw⟩
  | slice w => exact ⟨rfl, rfl, hw⟩
  | range r => exact ⟨rfl, rfl, hw⟩

/-- What may stand in a cell, typed at the closures of a store, is of the type. -/
theorem Cell.Typed.of {code : Code} {ls : List Layout} {home : Option Nat} {c : Cell}
    (h : ∀ f, f.Typed code ls home → good f) (hnone : ∀ f, f.Typed code ls none → good f)
    (hc : c.Typed code ls home ty) : c.Of good ty := by
  cases c with
  | undefined => trivial
  | bool b => exact hc
  | int n => exact hc
  | float x => exact hc
  | reference v =>
    cases v with
    | function f => exact ⟨rfl, hc.1.symm, .function (h f hc.2)⟩
    | bool b => rw [← hc.2.ty] at hc; cases hc.1
    | int n => rw [← hc.2.ty] at hc; cases hc.1
    | float x => rw [← hc.2.ty] at hc; cases hc.1
    | array a => exact ⟨rfl, hc.2.ty, hc.2.wellTyped.imp hnone⟩
    | slice w => exact ⟨rfl, hc.2.ty, hc.2.wellTyped.imp hnone⟩
    | range r => exact ⟨rfl, hc.2.ty, hc.2.wellTyped.imp hnone⟩

/-! ## Frames -/

namespace Frame

variable {f g : Frame} {i : Nat}

theorem Of.allocate (l : Layout) : (Frame.allocate l).Of good := by
  intro i s hs
  rw [cell_of_allocate hs]
  trivial

theorem Of.setCell (hf : f.Of good) {cell : Cell}
    (hcell : ∀ s, f.slots[i]? = some s → cell.Of good s.ty) : (f.setCell i cell).Of good := by
  intro j s hs
  obtain hold | ⟨t, rfl, ht, rfl⟩ := slot_of_setCell hs
  · exact hf j s hold
  · exact hcell t ht

/-- A value in a slot of its type. -/
theorem Of.put (hf : f.Of good) {v : Value} (hv : v.WellTyped good) {s : Slot}
    (hs : f.slots[i]? = some s) (hty : s.ty = v.ty) : (f.setCell i v.cell).Of good :=
  hf.setCell fun t ht => by
    rw [hs] at ht
    cases ht
    exact Value.Of.cell ⟨hty.symm, hv⟩

theorem Of.readAs (hf : f.Of good) (hd : f.layout.Declares i ty) {family : Family}
    {x : Carrier family} (h : f.readAs family i = .ok x) : (family.box x).Of good ty := by
  obtain ⟨s, hs, hcell⟩ := readAs_eq_ok h
  rw [← (declares_of_slot hs).unique hd]
  exact (hf i s hs).value hcell

/-- **A slot is read boxed as it is read in the family of its type.** -/
theorem readValue_of_shaped {s : Slot} (hs : f.slots[i]? = some s) (hcell : s.cell.Shaped s.ty)
    {family : Family} (hfamily : s.ty.family = family) :
    (liftM (f.readValue i) : Except Fault Value) = (f.readAs family i).map family.box := by
  have hcategory : s.ty.category = family.category := by rw [Ty.category, hfamily]
  unfold readValue
  rw [slotType_of_slot hs, ok_bind, hcategory]
  cases family with
  | bool =>
    show (liftM (f.readBool i >>= fun b => pure (.bool b)) : Except Fault Value)
      = Except.map Value.bool (liftM (f.readBool i))
    cases f.readBool i <;> rfl
  | int =>
    show (liftM (f.readInt i >>= fun n => pure (.int n)) : Except Fault Value)
      = Except.map Value.int (liftM (f.readInt i))
    cases f.readInt i <;> rfl
  | float =>
    show (liftM (f.readFloat i >>= fun x => pure (.float x)) : Except Fault Value)
      = Except.map Value.float (liftM (f.readFloat i))
    cases f.readFloat i <;> rfl
  | reference =>
    show (liftM (f.readReference i) : Except Fault Value)
      = Except.map id (liftM (f.readReference i))
    cases f.readReference i <;> rfl
  | function =>
    show (liftM (f.readReference i) : Except Fault Value)
      = Except.map Value.function (f.readFunction i)
    rw [readReference_of_slot hs hcategory, readFunction_of_slot hs hcategory]
    cases hc : s.cell with
    | undefined => rfl
    | reference v =>
      -- In a slot of a function type there is no other reference.
      rw [hc] at hcell
      have hv : v.family = .function := by rw [← Value.family_ty, hcell.2, hfamily]
      cases v <;> first | rfl | cases hv
    | bool b => rw [hc] at hcell; rw [show s.ty = .bool from hcell] at hfamily; cases hfamily
    | int n => rw [hc] at hcell; rw [show s.ty = .int from hcell] at hfamily; cases hfamily
    | float x => rw [hc] at hcell; rw [show s.ty = .float from hcell] at hfamily; cases hfamily

theorem Of.readValue_eq (hf : f.Of good) (hd : f.layout.Declares i ty) {family : Family}
    (hfamily : ty.family = family) :
    (liftM (f.readValue i) : Except Fault Value) = (f.readAs family i).map family.box := by
  obtain ⟨s, hs, rfl⟩ := slot_of_declares hd
  exact readValue_of_shaped hs (hf i s hs).shaped hfamily

/-- A value is written boxed as it is written in the family of its type. -/
theorem writeAs_eq_writeValue (hd : f.layout.Declares i ty) {family : Family} {x : Carrier family}
    (hfamily : ty.family = family) (hx : (family.box x).ty = ty) :
    f.writeAs i family x = f.writeValue i (family.box x) := by
  obtain ⟨s, hs, rfl⟩ := slot_of_declares hd
  rw [writeAs_of_slot hs hx.symm hfamily, writeValue_of_slot hs hx.symm]

theorem writeFunction_eq_writeValue {k : Function} (hd : f.layout.Declares i k.ty) :
    f.writeFunction i k = f.writeValue i (.function k) := by
  obtain ⟨s, hs, hty⟩ := slot_of_declares hd
  have hvalue : s.ty = (Value.function k).ty := hty
  rw [writeFunction_of_slot hs hty, writeValue_of_slot hs hvalue]
  rfl

/-- A written value leaves a frame of the same layout. -/
theorem Of.writeValue (hf : f.Of good) {v : Value} (hv : v.WellTyped good)
    (h : f.writeValue i v = .ok g) : g.layout = f.layout ∧ g.Of good := by
  obtain ⟨rfl, s, hs, hty⟩ := setCell_of_writeValue h
  exact ⟨layout_setCell .., hf.put hv hs hty⟩

end Frame

/-! ## Capture and disclosure -/

/-- Copied slots are of their types. -/
theorem copySlots_of {source target g : Frame} (hs : source.Of good) (ht : target.Of good)
    (ts : List Transfer) (h : copySlots source ts target = .ok g) :
    g.layout = target.layout ∧ g.Of good := by
  induction ts generalizing target with
  | nil => cases h; exact ⟨rfl, ht⟩
  | cons t ts ih =>
    obtain ⟨u, hu, h⟩ := bind_eq_ok.mp h
    obtain ⟨here, there, hhere, hthere, hty, rfl⟩ := Frame.copySlot_eq_ok hu
    have copied : (target.setCell t.target here.cell).Of good := ht.setCell fun s hslot => by
      rw [hthere] at hslot
      cases hslot
      rw [hty]
      exact hs _ _ hhere
    obtain ⟨hlayout, hof⟩ := ih copied h
    exact ⟨hlayout.trans (Frame.layout_setCell ..), hof⟩

/-- What disclosure makes of a cell of the closure `id`. -/
def Cell.disclosed (id : Nat) : Cell → Cell
  | .reference (.function f) =>
    .reference (.function (if f.isSelfReference then f.withClosure id else f))
  | c => c

/-- Disclosure keeps the type of a cell, if the functions it turns to the closure are admitted. -/
theorem Cell.Of.disclosed {c : Cell} (hc : c.Of good ty) (id : Nat)
    (turn : ∀ f, good f → f.isSelfReference = true → good (f.withClosure id)) :
    (c.disclosed id).Of good ty := by
  unfold Cell.disclosed
  split
  · next f =>
    obtain ⟨-, hty, hw⟩ := hc
    cases hw with
    | function hf =>
      split
      · next hself => exact ⟨rfl, hty, .function (turn f hf hself)⟩
      · exact ⟨rfl, hty, .function hf⟩
  · exact hc

section Disclosure

variable {closure frame : Frame} {t : Transfer} {here there : Slot}

/-- A slot of a closure is disclosed to a slot of its type. -/
theorem discloseSlot_of_shaped (id : Nat) (hhere : closure.slots[t.source]? = some here)
    (hthere : frame.slots[t.target]? = some there) (hty : there.ty = here.ty)
    (hcell : here.cell.Shaped here.ty) :
    discloseSlot id closure t frame = .ok (frame.setCell t.target (here.cell.disclosed id)) := by
  have written := Frame.slot_setCell_self here.cell hthere
  unfold discloseSlot
  rw [Frame.copySlot_of_slots hhere hthere hty]
  show ((liftM ((frame.setCell t.target here.cell).slot t.target) : Except Fault Slot) >>= _) = _
  rw [Frame.slot_eq_ok.mpr written]
  show (if (here.cell.isDefined && there.ty.isFunction) = true then _ else _) = _
  cases hc : here.cell with
  | reference v =>
    rw [hc] at hcell written
    cases v with
    | function f =>
      have hf : there.ty = f.ty := hty.trans hcell.2.symm
      have hfunction : ((Cell.reference (.function f)).isDefined && there.ty.isFunction) = true := by
        rw [hf]
        rfl
      rw [if_pos hfunction, Frame.readFunction_of_slot written (by rw [hf]; rfl)]
      show (if f.isSelfReference = true then _ else _) = _
      cases hself : f.isSelfReference with
      | false => simp [Cell.disclosed, hself]; rfl
      | true =>
        have hwith : there.ty = (f.withClosure id).ty := hf
        rw [if_pos rfl, Frame.writeFunction_of_slot written hwith, Frame.setCell_setCell]
        simp [Cell.disclosed, hself]
    | _ =>
      have hno : there.ty.isFunction = false := by rw [hty, ← hcell.2]; rfl
      rw [hno]
      rfl
  | undefined => rfl
  | bool b => rw [hty, show here.ty = .bool by rw [hc] at hcell; exact hcell]; rfl
  | int n => rw [hty, show here.ty = .int by rw [hc] at hcell; exact hcell]; rfl
  | float x => rw [hty, show here.ty = .float by rw [hc] at hcell; exact hcell]; rfl

theorem discloseSlot_of_cell (id : Nat) (hhere : closure.slots[t.source]? = some here)
    (hthere : frame.slots[t.target]? = some there) (hty : there.ty = here.ty)
    (hcell : here.cell.Of good here.ty) :
    discloseSlot id closure t frame = .ok (frame.setCell t.target (here.cell.disclosed id)) :=
  discloseSlot_of_shaped id hhere hthere hty hcell.shaped

/-- What a run on the frame of a call keeps: the frame is of its layout. It calls nothing, so it
exhausts no depth. -/
def Discipline.frameOf (good : Function → Prop) (layout : Layout) : Discipline Frame where
  holds f := f.layout = layout ∧ f.Of good
  leads _ _ := True
  halts h := h ≠ .exhausted
  refl _ := trivial
  trans _ _ := trivial

variable {layout : Layout}

/-- A write to the frame of a call, if it passes its checks. -/
theorem Run.Obeys.update_of {f : Frame → Except Fault Frame}
    (hframe : (Discipline.frameOf good layout).holds frame)
    (h : ∀ g, f frame = .ok g → g.layout = frame.layout ∧ g.Of good) :
    (Run.update f).Obeys (.frameOf good layout) frame fun _ _ => True := by
  cases hf : f frame with
  | error e =>
    exact .of_halt (e := .fault e []) (by simp [Run.update, hf]) hframe trivial
      (Halt.fault_ne_exhausted e [])
  | ok g =>
    obtain ⟨hlayout, hof⟩ := h g hf
    exact .of_update hf ⟨hlayout.trans hframe.1, hof⟩ trivial trivial

theorem discloseSlots_of {id : Nat} (hclosure : closure.Of good)
    (reveal : ∀ (i : Nat) (s : Slot), closure.slots[i]? = some s →
      (s.cell.disclosed id).Of good s.ty)
    (hframe : (Discipline.frameOf good layout).holds frame) (ts : List Transfer) :
    (discloseSlots id closure ts).Obeys (.frameOf good layout) frame fun _ _ => True := by
  induction ts generalizing frame with
  | nil => exact .pure hframe trivial
  | cons t ts ih =>
    refine .bind (p := fun _ _ => True) (.update_of hframe fun g hg => ?_) fun _ g hg _ _ => ih hg
    obtain ⟨u, hu, -⟩ := bind_eq_ok.mp hg
    obtain ⟨here, there, hhere, hthere, hty, -⟩ := Frame.copySlot_eq_ok hu
    rw [discloseSlot_of_cell id hhere hthere hty (hclosure _ _ hhere)] at hg
    cases hg
    refine ⟨Frame.layout_setCell .., hframe.2.setCell fun s hs => ?_⟩
    rw [hthere] at hs
    cases hs
    rw [hty]
    exact reveal _ _ hhere

theorem writeParams_of {slots : List Nat} {args : List Value}
    (hargs : ∀ v ∈ args, v.WellTyped good)
    (hframe : (Discipline.frameOf good layout).holds frame) :
    (writeParams slots args).Obeys (.frameOf good layout) frame fun _ _ => True := by
  induction slots generalizing args frame with
  | nil => exact .pure hframe trivial
  | cons slot slots ih =>
    cases args with
    | nil => exact .pure hframe trivial
    | cons v vs =>
      obtain ⟨hv, hvs⟩ := List.forall_mem_cons.mp hargs
      exact .bind (p := fun _ _ => True)
        (.update_of hframe fun g hg => hframe.2.writeValue hv hg) fun _ g hg _ _ => ih hvs hg

/-- **The frame that a body starts in is of its layout**, whatever it is called with. -/
theorem Body.enter_of (body : Body) {captured : Option (Nat × Frame)} {args : List Value}
    (hcaptured : ∀ id closure, captured = some (id, closure) → closure.Of good)
    (reveal : ∀ id closure, captured = some (id, closure) → ∀ (i : Nat) (s : Slot),
      closure.slots[i]? = some s → (s.cell.disclosed id).Of good s.ty)
    (hargs : ∀ v ∈ args, v.WellTyped good) :
    (body.enter captured args).Obeys (.frameOf good body.frame) (.allocate body.frame)
      fun _ _ => True := by
  have fresh : (Discipline.frameOf good body.frame).holds (.allocate body.frame) :=
    ⟨Frame.layout_allocate _, .allocate _⟩
  refine .bind (p := fun _ _ => True) ?_ fun _ frame hframe _ _ => ?_
  · unfold disclose
    split
    · split
      · exact .pure fresh trivial
      · exact .fault fresh (Halt.fault_ne_exhausted _ _)
    · next id closure =>
      split
      · exact .fault fresh (Halt.fault_ne_exhausted _ _)
      · exact discloseSlots_of (hcaptured id closure rfl) (reveal id closure rfl) fresh _
  · split
    · exact .bind (p := fun _ _ => True) (.fault hframe (Halt.fault_ne_exhausted _ _))
        fun _ g hg _ _ => writeParams_of hargs hg
    · exact writeParams_of hargs hframe

end Disclosure

/-! ## Stores -/

namespace Store

variable {s : Store} {frame : Frame}

theorem Of.addClosure (hs : s.Of good) (hframe : frame.Of good) :
    (s.addClosure frame).2.Of good := by
  intro id g hg
  simp only [Store.addClosure, Array.getElem?_push] at hg
  split at hg
  · cases hg; exact hframe
  · exact hs id g hg

theorem Of.setClosure (hs : s.Of good) (hframe : frame.Of good) (id : Nat) :
    (s.setClosure id frame).Of good := by
  intro k g hg
  by_cases hk : id = k
  · subst hk
    cases hold : s.closures[id]? with
    | none => simp [Store.setClosure, Array.getElem?_modify, hold] at hg
    | some old =>
      rw [getElem?_setClosure_self hold] at hg
      cases hg
      exact hframe
  · rw [getElem?_setClosure_ne hk] at hg
    exact hs k g hg

end Store

/-! ## Admitted functions -/

/-- **A function is admitted**: guest code is of its result type, and host code is called under a
signature that it was registered with; `hosts` says which, for each number of the table. -/
def Code.Admits (code : Code) (hosts : Nat → Signature → Prop) (f : Function) : Prop :=
  match code.routine? f.target with
  | none => True
  | some (.user body) => f.target.signature.result = body.node.ty
  | some (.native _) => f.target.closure = none ∧ hosts f.target.id f.target.signature

/-- A guest function that can be defined is admitted, with every closure. -/
theorem Code.Declares.admits {code : Code} {target : Target} (h : code.Declares target)
    {l : Layout} (hl : target.closure = some l) (hosts : Nat → Signature → Prop)
    (c : Option ClosureRef) : code.Admits hosts ⟨target, c⟩ := by
  unfold Code.Declares at h
  unfold Code.Admits
  split at h
  · exact h.elim
  · next body hroutine =>
    obtain ⟨closure, -, hcheck⟩ := h
    simp only [hroutine]
    exact (FunctionSpec.check_eq_ok hcheck).2.2.1
  · rw [h.1] at hl
    cases hl

/-- The signatures of the standard builtins that stand in a code table. -/
def Code.standardHosts (code : Code) (id : Nat) (signature : Signature) : Prop :=
  ∃ b : Builtin, b.IsStandard ∧ code.routines[id]? = some (.native b.script) ∧
    b.signature = signature

theorem Function.Typed.admits {code : Code} {ls : List Layout} {home : Option Nat} {f : Function}
    (hf : f.Typed code ls home) : code.Admits code.standardHosts f := by
  have declared := hf.declared
  unfold Code.Declares at declared
  unfold Code.Admits
  cases hroutine : code.routine? f.target with
  | none =>
    rw [hroutine] at declared
    exact declared.elim
  | some routine =>
    rw [hroutine] at declared
    cases routine with
    | user body =>
      obtain ⟨closure, -, hcheck⟩ := declared
      exact (FunctionSpec.check_eq_ok hcheck).2.2.1
    | native script =>
      obtain ⟨hclosure, b, hb, rfl, hsignature⟩ := declared
      exact ⟨hclosure, b, hb, hroutine, hsignature⟩

/-- **A typed activation is of its layout**, with the standard builtins as host functions. -/
theorem Activation.Typed.of {code : Code} {layout : Layout} {a : Activation}
    (ha : a.Typed code layout) : a.Of (code.Admits code.standardHosts) layout :=
  ⟨ha.layout,
    fun i s hs => (ha.frame i s hs).of (fun _ hf => hf.admits) (fun _ hf => hf.admits),
    fun id frame hframe i s hs =>
      (ha.store id frame hframe i s hs).of (fun _ hf => hf.admits) (fun _ hf => hf.admits)⟩

end TypedEval
