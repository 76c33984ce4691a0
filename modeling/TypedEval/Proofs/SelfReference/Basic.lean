import TypedEval.Call
import TypedEval.Proofs.Closure.Basic
import TypedEval.Proofs.Discipline
import TypedEval.Proofs.Value.References

/-!
# Where functions stand

A property of function values may depend on where they stand: directly in a slot of a closure, the
**home**, or anywhere else. `Holds` says such a property of all functions in a value, a frame, a
store or an activation. An element of an array stands nowhere in particular, also where the array is
in a closure. A function in a slot is of the type that the slot is declared with.

What a frame operation does to a frame that holds a property is said here once, for every property;
nothing is asked of types beyond that of functions in their slots.
-/

namespace TypedEval

/-! ## Values -/

/-- **All functions in a value have a property**, down to the elements of arrays. -/
inductive Value.Holds (good : Function → Prop) : Value → Prop where
  | bool (b : Bool) : Holds good (.bool b)
  | int (n : Int64) : Holds good (.int n)
  | float (x : Float) : Holds good (.float x)
  | range (r : Range) : Holds good (.range r)
  | function {f : Function} (h : good f) : Holds good (.function f)
  | array {a : ArrayValue} (elements : ∀ v ∈ a.storage.references, Holds good v) :
      Holds good (.array a)
  | slice {v : View} (elements : ∀ x ∈ v.array.storage.references, Holds good x) :
      Holds good (.slice v)

namespace Value

variable {good better : Function → Prop} {v : Value}

theorem Holds.imp (h : ∀ f, good f → better f) (hv : v.Holds good) : v.Holds better := by
  induction hv with
  | bool b => exact .bool b
  | int n => exact .int n
  | float x => exact .float x
  | range r => exact .range r
  | function hf => exact .function (h _ hf)
  | array _ ih => exact .array ih
  | slice _ ih => exact .slice ih

theorem holds_of_primitive (v : Value) (h : v.family.isPrimitive = true) : v.Holds good := by
  cases v with
  | bool b => exact .bool b
  | int n => exact .int n
  | float x => exact .float x
  | _ => cases h

/-- The cells behind a view of a value. -/
theorem Holds.view (hv : v.Holds good) {w : View} (h : v.expectView = .ok w) :
    w.array.storage.Each (Holds good) := by
  cases hv with
  | array elements => cases h; exact elements
  | slice elements => cases h; exact elements
  | _ => cases h

theorem Holds.unbox {family : Family} {x : Carrier family} (hv : v.Holds good)
    (h : family.unbox v = .ok x) : (family.box x).Holds good := by
  cases family with
  | bool => exact .bool x
  | int => exact .int x
  | float => exact .float x
  | function => cases hv <;> cases h; next hf => exact .function hf
  | reference => cases h; exact hv

theorem Holds.function_of (hv : v.Holds good) {f : Function} (h : v.expectFunction = .ok f) :
    good f := by
  cases hv <;> cases h
  next hf => exact hf

/-- The cells that a sequence is enumerated from. -/
theorem Holds.elements (hv : v.Holds good) {it : Elements} (h : v.elements = .ok it) :
    it.Each (Holds good) := by
  cases hv with
  | array elements => cases h; exact elements
  | slice elements => cases h; exact elements
  | range r =>
    have h := lift_cause_eq_ok.mp h
    cases r with
    | int r => obtain ⟨_, _, h⟩ := bind_eq_ok.mp h; cases h; trivial
    | float r => obtain ⟨_, _, h⟩ := bind_eq_ok.mp h; cases h; trivial
  | _ => cases h

end Value

/-- **A function value is at home**: the closure that it names is among the first `closures`, and a
self-reference stands in the closure that it names. -/
structure Function.Homed (closures : Nat) (home : Option Nat) (f : Function) : Prop where
  named : ∀ id, f.closureId? = some id → id < closures
  self : f.isSelfReference = true → f.closureId? = home

/-! ## Slots, frames and stores -/

/-- The functions in a slot of a type have a property; `home` is the closure that the slot is of. -/
def Cell.Holds (good : Option Nat → Function → Prop) (home : Option Nat) (ty : Ty) : Cell → Prop
  | .reference (.function f) => ty = f.ty ∧ good home f
  | .reference v => v.Holds (good none)
  | _ => True

/-- **The functions in a frame have a property.** -/
def Frame.Holds (good : Option Nat → Function → Prop) (home : Option Nat) (f : Frame) : Prop :=
  ∀ (i : Nat) (s : Slot), f.slots[i]? = some s → s.cell.Holds good home s.ty

/-- **The functions in the closures of a store have a property**, each closure as their home. -/
def Store.Holds (good : Option Nat → Function → Prop) (s : Store) : Prop :=
  ∀ (id : Nat) (frame : Frame), s.closures[id]? = some frame → frame.Holds good (some id)

/-- **A store is at home**: self-references stand only in slots of the closures that they name. -/
def Store.Homed (s : Store) : Prop := s.Holds (Function.Homed s.closures.size)

/-- **An activation is at home**: its store is, and no slot of its frame holds a self-reference. -/
structure Activation.Homed (a : Activation) : Prop where
  frame : a.frame.Holds (Function.Homed a.store.closures.size) none
  store : a.store.Homed

/-- **A value is at home** outside of closures: nothing in it is a self-reference. -/
def Value.HomedIn (s : Store) (v : Value) : Prop := v.Holds (Function.Homed s.closures.size none)

section

variable {good better : Option Nat → Function → Prop} {home : Option Nat} {ty : Ty}

theorem Cell.Holds.imp (h : ∀ home f, good home f → better home f) {c : Cell}
    (hc : c.Holds good home ty) : c.Holds better home ty := by
  unfold Cell.Holds at hc ⊢
  split at hc
  · exact ⟨hc.1, h home _ hc.2⟩
  · exact Value.Holds.imp (h none) hc
  · trivial

/-- What is read from a slot of an activation. -/
theorem Cell.Holds.value {c : Cell} (hc : c.Holds good none ty) {v : Value}
    (h : c.value? = some v) : v.Holds (good none) := by
  cases c with
  | undefined => cases h
  | bool b => cases h; exact .bool b
  | int n => cases h; exact .int n
  | float x => cases h; exact .float x
  | reference w =>
    cases h
    cases v with
    | function f => exact .function hc.2
    | _ => exact hc

/-- What is written to a slot. -/
theorem Value.Holds.cell {v : Value} (hv : v.Holds (good none)) : v.cell.Holds good none v.ty := by
  cases v with
  | function f => cases hv with | function hf => exact ⟨rfl, hf⟩
  | bool b => trivial
  | int n => trivial
  | float x => trivial
  | array a => exact hv
  | slice w => exact hv
  | range r => exact hv

namespace Frame

variable {f g : Frame} {i : Nat}

theorem Holds.imp (h : ∀ home f, good home f → better home f) (hf : f.Holds good home) :
    f.Holds better home :=
  fun i s hs => (hf i s hs).imp h

theorem Holds.allocate (l : Layout) : (Frame.allocate l).Holds good home := by
  intro i s hs
  rw [cell_of_allocate hs]
  trivial

theorem Holds.setCell (hf : f.Holds good home) {cell : Cell}
    (hcell : ∀ s, f.slots[i]? = some s → cell.Holds good home s.ty) :
    (f.setCell i cell).Holds good home := by
  intro j s hs
  obtain hold | ⟨t, rfl, ht, rfl⟩ := slot_of_setCell hs
  · exact hf j s hold
  · exact hcell t ht

theorem Holds.readAs (hf : f.Holds good none) {family : Family} {x : Carrier family}
    (h : f.readAs family i = .ok x) : (family.box x).Holds (good none) := by
  obtain ⟨s, hs, hcell⟩ := readAs_eq_ok h
  exact (hf i s hs).value hcell

theorem Holds.readFunction (hf : f.Holds good none) {k : Function}
    (h : f.readFunction i = .ok k) : good none k := by
  obtain ⟨s, hs, hcell⟩ := readFunction_eq_ok h
  have held := hf i s hs
  rw [hcell] at held
  exact held.2

/-- A value in a slot of its type. -/
theorem Holds.put (hf : f.Holds good none) {v : Value} (hv : v.Holds (good none)) {s : Slot}
    (hs : f.slots[i]? = some s) (hty : s.ty = v.ty) : (f.setCell i v.cell).Holds good none :=
  hf.setCell fun t ht => by
    rw [hs] at ht
    cases ht
    rw [hty]
    exact hv.cell

theorem Holds.writeAs (hf : f.Holds good none) {family : Family} {x : Carrier family}
    (hx : (family.box x).Holds (good none)) (h : f.writeAs i family x = .ok g) :
    g.Holds good none := by
  obtain ⟨rfl, s, hs, hty⟩ := setCell_of_writeAs h
  exact hf.put hx hs hty

theorem Holds.writeValue (hf : f.Holds good none) {v : Value} (hv : v.Holds (good none))
    (h : f.writeValue i v = .ok g) : g.Holds good none := by
  obtain ⟨rfl, s, hs, hty⟩ := setCell_of_writeValue h
  exact hf.put hv hs hty

end Frame

/-! ## Capture and disclosure -/

/-- **Captured slots** hold what the frame held, wherever that may stand in a closure too. -/
theorem copySlots_holds (enclose : ∀ f, good none f → good home f) {source target g : Frame}
    (hs : source.Holds good none) (ht : target.Holds good home) (ts : List Transfer)
    (h : copySlots source ts target = .ok g) : g.Holds good home := by
  induction ts generalizing target with
  | nil => cases h; exact ht
  | cons t ts ih =>
    obtain ⟨u, hu, h⟩ := bind_eq_ok.mp h
    obtain ⟨here, there, hhere, hthere, hty, rfl⟩ := Frame.copySlot_eq_ok hu
    refine ih (ht.setCell fun s hslot => ?_) h
    rw [hthere] at hslot
    cases hslot
    have hcell := hs _ _ hhere
    rw [hty]
    unfold Cell.Holds at hcell ⊢
    split at hcell
    · exact ⟨hcell.1, enclose _ hcell.2⟩
    · exact hcell
    · trivial

/-- What disclosure hands out for a function in the closure `id`. -/
def Function.disclosedFrom (id : Nat) (f : Function) : Function :=
  if f.isSelfReference then f.withClosure id else f

/-- A disclosed slot is a slot of the closure, with a self-reference made a shared one. -/
theorem discloseSlot_eq_ok {id : Nat} {closure frame g : Frame} {t : Transfer}
    (hclosure : closure.Holds good home) (h : discloseSlot id closure t frame = .ok g) :
    ∃ here there, closure.slots[t.source]? = some here ∧ frame.slots[t.target]? = some there ∧
      there.ty = here.ty ∧
      g = frame.setCell t.target (match here.cell with
        | .reference (.function f) => .reference (.function (f.disclosedFrom id))
        | c => c) := by
  unfold discloseSlot at h
  obtain ⟨u, hu, h⟩ := bind_eq_ok.mp h
  obtain ⟨here, there, hhere, hthere, hty, rfl⟩ := Frame.copySlot_eq_ok hu
  refine ⟨here, there, hhere, hthere, hty, ?_⟩
  have hcell := hclosure _ _ hhere
  have written := Frame.slot_setCell_self here.cell hthere
  obtain ⟨s, hs, h⟩ := bind_eq_ok.mp h
  have hs := Frame.slot_eq_ok.mp (lift_defect_eq_ok.mp hs)
  rw [written] at hs
  cases hs
  split at h
  · next hdefined =>
    obtain ⟨f, hread, h⟩ := bind_eq_ok.mp h
    obtain ⟨s, hs, hfunction⟩ := Frame.readFunction_eq_ok hread
    rw [written] at hs
    cases hs
    simp only at hfunction
    rw [hfunction] at h ⊢
    simp only [Function.disclosedFrom]
    split at h
    · next hself =>
      obtain ⟨rfl, -⟩ := Frame.setCell_of_writeFunction h
      rw [Frame.setCell_setCell, if_pos hself]
    · next hshared =>
      cases h
      rw [if_neg hshared]
  · next hundefined =>
    cases h
    split
    · next f hc =>
      -- A function stands in a slot of its type, so the slot was asked for one.
      rw [hc] at hcell hundefined
      exact absurd (by rw [hty, hcell.1]; rfl) hundefined
    · rfl

/-- What a run on the frame of a call keeps. -/
def Discipline.holdingFrame (good : Option Nat → Function → Prop) : Discipline Frame where
  holds f := f.Holds good none
  leads _ _ := True
  halts _ := True
  refl _ := trivial
  trans _ _ := trivial

theorem discloseSlots_holds {id : Nat} {closure frame : Frame}
    (reveal : ∀ f, good (some id) f → good none (f.disclosedFrom id))
    (hclosure : closure.Holds good (some id)) (hframe : frame.Holds good none)
    (ts : List Transfer) :
    (discloseSlots id closure ts).Obeys (.holdingFrame good) frame fun _ _ => True := by
  induction ts generalizing frame with
  | nil => exact .pure hframe trivial
  | cons t ts ih =>
    refine .bind (p := fun _ _ => True) ?_ fun _ g hg _ _ => ih hg
    cases hd : discloseSlot id closure t frame with
    | error e =>
      exact .of_halt (e := .fault e []) (by simp [Run.update, hd]) hframe trivial trivial
    | ok g =>
      refine .of_update hd ?_ trivial trivial
      obtain ⟨here, there, hhere, hthere, hty, rfl⟩ := discloseSlot_eq_ok hclosure hd
      have hcell := hclosure _ _ hhere
      refine Frame.Holds.setCell hframe fun s hs => ?_
      rw [hthere] at hs
      cases hs
      rw [hty]
      split
      · next f hc =>
        rw [hc] at hcell
        have hself : (f.disclosedFrom id).ty = f.ty := by
          unfold Function.disclosedFrom
          split <;> rfl
        exact ⟨by rw [hself]; exact hcell.1, reveal f hcell.2⟩
      · next hother =>
        cases hc : here.cell with
        | reference v =>
          rw [hc] at hcell
          cases v with
          | function f => exact absurd hc (hother f)
          | _ => exact hcell
        | _ => trivial

theorem writeParams_holds {slots : List Nat} {args : List Value}
    (hargs : ∀ v ∈ args, v.Holds (good none)) {frame : Frame} (hframe : frame.Holds good none) :
    (writeParams slots args).Obeys (.holdingFrame good) frame fun _ _ => True := by
  induction slots generalizing args frame with
  | nil => exact .pure hframe trivial
  | cons slot slots ih =>
    cases args with
    | nil => exact .pure hframe trivial
    | cons v vs =>
      refine .bind (p := fun _ _ => True) ?_
        fun _ g hg _ _ => ih (fun w hw => hargs w (List.mem_cons_of_mem v hw)) hg
      cases hw : frame.writeValue slot v with
      | error e =>
        exact .of_halt (e := .fault e []) (by simp [Run.update, hw]) hframe trivial trivial
      | ok g =>
        exact .of_update hw (hframe.writeValue (hargs v List.mem_cons_self) hw) trivial trivial

/-- **The frame that a body starts in** holds what the closure and the arguments held. -/
theorem Body.enter_holds (body : Body) {captured : Option (Nat × Frame)} {args : List Value}
    (reveal : ∀ id f, good (some id) f → good none (f.disclosedFrom id))
    (hcaptured : ∀ id closure, captured = some (id, closure) → closure.Holds good (some id))
    (hargs : ∀ v ∈ args, v.Holds (good none)) :
    (body.enter captured args).Obeys (.holdingFrame good) (.allocate body.frame)
      fun _ _ => True := by
  have fresh : (Frame.allocate body.frame).Holds good none := .allocate body.frame
  refine .bind (p := fun _ _ => True) ?_ fun _ frame hframe _ _ => ?_
  · unfold disclose
    split
    · split
      · exact .pure fresh trivial
      · exact .fault fresh trivial
    · next id closure =>
      split
      · exact .fault fresh trivial
      · exact discloseSlots_holds (reveal id) (hcaptured id closure rfl) fresh _
  · split
    · exact .bind (p := fun _ _ => True) (.fault hframe trivial)
        fun _ g hg _ _ => writeParams_holds hargs hg
    · exact writeParams_holds hargs hframe

end

end TypedEval
