import TypedEval.Proofs.Typing.Basic

/-!
# Typed access to frames

Reading a declared slot of a typed frame in the family of its type gives a value that fits the type,
or reports that the slot was never written. Writing a value that fits succeeds and keeps the frame
typed. Between frames, a slot is copied with its contents; what may be done with them depends on
where they go, which is the business of capture and disclosure.
-/

namespace TypedEval

namespace Frame

variable {code : Code} {ls : List Layout} {home : Option Nat} {f : Frame} {i : Nat} {ty : Ty}

theorem Typed.allocate (l : Layout) : (allocate l).Typed code ls home := by
  intro i s hs
  rw [cell_of_allocate hs]
  trivial

/-- A typed cell in place of another keeps a frame typed. -/
theorem Typed.setCell (hf : f.Typed code ls home) {cell : Cell}
    (hcell : ∀ s, f.slots[i]? = some s → cell.Typed code ls home s.ty) :
    (f.setCell i cell).Typed code ls home := by
  intro j s hs
  obtain hold | ⟨t, rfl, ht, rfl⟩ := slot_of_setCell hs
  · exact hf j s hold
  · exact hcell t ht

/-! ## Reading -/

/-- **A read of a declared slot fits its type**, or finds the slot undefined. -/
theorem Typed.readAs (hf : f.Typed code ls none) (hd : f.layout.Declares i ty) {family : Family}
    (hfamily : ty.family = family) :
    Gives (f.readAs family i) fun x => (family.box x).Fits code ls ty := by
  obtain ⟨s, hs, rfl⟩ := slot_of_declares hd
  have hcell := hf i s hs
  have hcategory : s.ty.category = family.category := by rw [Ty.category, hfamily]
  cases family with
  | bool =>
    have hty := Ty.eq_bool_of_family hfamily
    show Gives (liftM (f.readBool i)) _
    rw [readBool_of_slot hs hcategory]
    split
    · next b _ => exact ⟨hty.symm, .bool b⟩
    · trivial
  | int =>
    have hty := Ty.eq_int_of_family hfamily
    show Gives (liftM (f.readInt i)) _
    rw [readInt_of_slot hs hcategory]
    split
    · next n _ => exact ⟨hty.symm, .int n⟩
    · trivial
  | float =>
    have hty := Ty.eq_float_of_family hfamily
    show Gives (liftM (f.readFloat i)) _
    rw [readFloat_of_slot hs hcategory]
    split
    · next x _ => exact ⟨hty.symm, .float x⟩
    · trivial
  | function =>
    show Gives (f.readFunction i) _
    rw [readFunction_of_slot hs hcategory]
    cases hc : s.cell with
    | undefined => trivial
    | bool b => rw [hc] at hcell; rw [show s.ty = .bool from hcell] at hfamily; cases hfamily
    | int n => rw [hc] at hcell; rw [show s.ty = .int from hcell] at hfamily; cases hfamily
    | float x => rw [hc] at hcell; rw [show s.ty = .float from hcell] at hfamily; cases hfamily
    | reference v =>
      rw [hc] at hcell
      cases v with
      | function g => exact ⟨hcell.1.symm, .function hcell.2⟩
      | _ =>
        have hty := hcell.2.ty
        rw [← hty] at hfamily
        cases hfamily
  | reference =>
    show Gives (liftM (f.readReference i)) _
    rw [readReference_of_slot hs hcategory]
    cases hc : s.cell with
    | reference v =>
      rw [hc] at hcell
      cases v with
      | function g => exact ⟨hcell.1.symm, .function hcell.2⟩
      | _ => exact hcell.2
    | _ => trivial

end Frame

/-! ## Writing -/

/-- A value that fits a type is kept in a typed cell. -/
theorem Value.Fits.cell {code : Code} {ls : List Layout} {v : Value} {ty : Ty}
    (hv : v.Fits code ls ty) : v.cell.Typed code ls none ty := by
  obtain ⟨rfl, hw⟩ := hv
  cases v with
  | function f => cases hw with | function hf => exact ⟨rfl, hf⟩
  | bool b => rfl
  | int n => rfl
  | float x => rfl
  | array a => exact ⟨rfl, rfl, hw⟩
  | slice w => exact ⟨rfl, rfl, hw⟩
  | range r => exact ⟨rfl, rfl, hw⟩

namespace Frame

variable {code : Code} {ls : List Layout} {f : Frame} {i : Nat} {ty : Ty}

/-- A value that fits the type of a slot keeps the frame typed when it is put there. -/
theorem Typed.put (hf : f.Typed code ls none) (hd : f.layout.Declares i ty) {v : Value}
    (hv : v.Fits code ls ty) : (f.setCell i v.cell).Typed code ls none :=
  hf.setCell fun _ hs => (declares_of_slot hs).unique hd ▸ hv.cell

/-- **A write of what fits a declared slot succeeds** and keeps the frame typed. -/
theorem Typed.writeAs (hf : f.Typed code ls none) (hd : f.layout.Declares i ty) {family : Family}
    {x : Carrier family} (hx : (family.box x).Fits code ls ty) (hfamily : ty.family = family) :
    ∃ g, f.writeAs i family x = .ok g ∧ g.layout = f.layout ∧ g.Typed code ls none := by
  obtain ⟨s, hs, rfl⟩ := slot_of_declares hd
  exact ⟨_, writeAs_of_slot hs hx.ty.symm hfamily, layout_setCell .., hf.put hd hx⟩

theorem Typed.writeValue (hf : f.Typed code ls none) (hd : f.layout.Declares i ty) {v : Value}
    (hv : v.Fits code ls ty) :
    ∃ g, f.writeValue i v = .ok g ∧ g.layout = f.layout ∧ g.Typed code ls none := by
  obtain ⟨s, hs, rfl⟩ := slot_of_declares hd
  exact ⟨_, writeValue_of_slot hs hv.ty.symm, layout_setCell .., hf.put hd hv⟩

end Frame

end TypedEval
