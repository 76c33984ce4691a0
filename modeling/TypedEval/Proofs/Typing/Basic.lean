import TypedEval.Call
import TypedEval.Builtin.Registry
import TypedEval.Proofs.Closure.Basic

/-!
# Typing of values, frames and stores

Typing is relative to a code table and to the layouts of the closures made so far. A function value
is **laid out** when its closure is there with the layout that its target gives; nothing is asked of
the closure's contents here, so that functions may stand in their own closures. The contents are the
business of `Store.Typed`, and the bodies are that of the code table.

A value is well typed down to the elements of arrays (`Value.WellTyped`), where a parameter says
which functions are admitted. `Value.Fits` is well-typedness at a type, with laid-out functions that
are no self-references. A self-reference is admitted in one place only: directly in a slot of the
closure that it names (`Function.Typed` with that closure as its home). Disclosure gives it the
closure that it is found in, so elsewhere it would come out with a closure of some other layout.

All of this is kept when closures are added (`mono` lemmas): layouts are appended, never changed.
-/

namespace TypedEval

/-! ## Functions -/

/-- **A target is declared**: its code is there, and fits its signature and closure layout. Host code
is a builtin of the standard library. -/
def Code.Declares (code : Code) (t : Target) : Prop :=
  match code.routine? t with
  | none => False
  | some (.user body) =>
    ∃ closure, t.closure = some closure ∧
      FunctionSpec.check ⟨t.name, t.ty, body.frame, body.params, closure, body.disclosure, body.node⟩
        = .ok t.signature
  | some (.native script) =>
    t.closure = none ∧
      ∃ b : Builtin, b.IsStandard ∧ b.script = script ∧ b.signature = t.signature

/-- The closure of a function, if it has one, is there and has the layout that its target gives. -/
def Function.LaidOut (layouts : List Layout) (f : Function) : Prop :=
  ∀ id, f.closureId? = some id → ∃ l, layouts[id]? = some l ∧ f.target.closure = some l

/-- **A function is typed** where it stands. A self-reference stands in the closure it names. -/
structure Function.Typed (code : Code) (layouts : List Layout) (home : Option Nat) (f : Function) :
    Prop where
  declared : code.Declares f.target
  laidOut : f.LaidOut layouts
  self : f.isSelfReference = true → f.closureId? = home

/-! ## Values -/

/-- The boxed cells of a storage. -/
def Storage.references {α : Type} : Storage α → List α
  | .boxed items => items.toList
  | _ => []

/-- **A value is well typed** down to the elements of arrays; `good` are the functions admitted. -/
inductive Value.WellTyped (good : Function → Prop) : Value → Prop where
  | bool (b : Bool) : WellTyped good (.bool b)
  | int (n : Int64) : WellTyped good (.int n)
  | float (x : Float) : WellTyped good (.float x)
  | range (r : Range) : WellTyped good (.range r)
  | function {f : Function} (h : good f) : WellTyped good (.function f)
  | array {a : ArrayValue} (category : a.storage.category = a.element.category)
      (types : ∀ v ∈ a.storage.references, v.ty = a.element)
      (elements : ∀ v ∈ a.storage.references, WellTyped good v) : WellTyped good (.array a)
  | slice {v : View} (category : v.array.storage.category = v.array.element.category)
      (types : ∀ x ∈ v.array.storage.references, x.ty = v.array.element)
      (elements : ∀ x ∈ v.array.storage.references, WellTyped good x) : WellTyped good (.slice v)

/-- **A value fits a type**, where it may be computed with: it has the type, and its functions are
typed and no self-references. -/
structure Value.Fits (code : Code) (layouts : List Layout) (v : Value) (ty : Ty) : Prop where
  ty : v.ty = ty
  wellTyped : v.WellTyped (Function.Typed code layouts none)

/-- **A storage is typed** for elements of a type: it is in the type's category, and its boxed cells
fit the type. -/
structure Storage.Typed (code : Code) (layouts : List Layout) (element : Ty) (s : Storage Value) :
    Prop where
  category : s.category = element.category
  elements : ∀ v ∈ s.references, v.Fits code layouts element

/-- Values fit types, position by position. -/
structure FitsAll (code : Code) (layouts : List Layout) (vs : List Value) (tys : List Ty) :
    Prop where
  types : vs.map Value.ty = tys
  wellTyped : ∀ v ∈ vs, v.WellTyped (Function.Typed code layouts none)

/-! ## Frames, stores and activations -/

/-- **The contents of a slot are typed** at its declared type. -/
def Cell.Typed (code : Code) (layouts : List Layout) (home : Option Nat) (ty : Ty) : Cell → Prop
  | .undefined => True
  | .bool _ => ty = .bool
  | .int _ => ty = .int
  | .float _ => ty = .float
  | .reference (.function f) => ty = f.ty ∧ f.Typed code layouts home
  | .reference v => ty.category = .reference ∧ v.Fits code layouts ty

/-- **A frame is typed**: every slot is. -/
def Frame.Typed (code : Code) (layouts : List Layout) (home : Option Nat) (f : Frame) : Prop :=
  ∀ (i : Nat) (s : Slot), f.slots[i]? = some s → s.cell.Typed code layouts home s.ty

/-- The layouts of the closures of a store, in order. -/
def Store.layouts (s : Store) : List Layout := s.closures.toList.map Frame.layout

/-- **A store is typed**: every closure is, as the home of its own self-references. -/
def Store.Typed (code : Code) (s : Store) : Prop :=
  ∀ (id : Nat) (frame : Frame), s.closures[id]? = some frame → frame.Typed code s.layouts (some id)

/-- **An activation of a layout is typed**: no slot of its frame holds a self-reference. -/
structure Activation.Typed (code : Code) (layout : Layout) (a : Activation) : Prop where
  layout : a.frame.layout = layout
  frame : a.frame.Typed code a.store.layouts none
  store : a.store.Typed code

/-! ## Halts -/

/-- **The faults that a typed run can still meet**: a raised cause; a slot read before it was
written; a call with a closure where none is disclosed, or without one where some is; and a view
that reaches outside its storage. No other defect, assertion or crash. -/
def Fault.Admissible : Fault → Prop
  | .raised _ => True
  | .defect (.undefinedSlot _) | .defect (.missingClosure _) | .defect .needlessClosure => True
  | .crash (.storagePosition _ _) | .crash .positionOverflow => True
  | _ => False

/-- The halts that a typed run can still meet: such a fault, or more depth than it was given. -/
def Halt.Admissible : Halt → Prop
  | .fault f _ => f.Admissible
  | .exhausted => True

/-- A check gives a value as it should be, or an admissible fault. -/
def Gives {α : Type} (x : Except Fault α) (p : α → Prop) : Prop :=
  match x with
  | .ok a => p a
  | .error f => f.Admissible

theorem Gives.ok {α : Type} {x : Except Fault α} {p : α → Prop} (h : Gives x p) {a : α}
    (hx : x = .ok a) : p a := by
  subst hx
  exact h

theorem Gives.imp {α : Type} {x : Except Fault α} {p q : α → Prop} (h : Gives x p)
    (k : ∀ a, p a → q a) : Gives x q := by
  cases x with
  | ok a => exact k a h
  | error e => exact h

theorem Gives.bind {α β : Type} {x : Except Fault α} {f : α → Except Fault β} {p : α → Prop}
    {q : β → Prop} (h : Gives x p) (k : ∀ a, p a → Gives (f a) q) : Gives (x >>= f) q := by
  cases x with
  | ok a => exact k a h
  | error e => exact h

/-- A check whose errors are causes gives nothing but causes. -/
theorem gives_of_cause {α : Type} {x : Except Cause α} {p : α → Prop} (h : ∀ a, x = .ok a → p a) :
    Gives (liftM x) p := by
  cases x with
  | ok a => exact h a rfl
  | error c => trivial

theorem Halt.Admissible.within {h : Halt} (hh : h.Admissible) (name : String) :
    (h.within name).Admissible := by
  unfold Halt.within
  split
  · trivial
  · exact hh

/-! ## Typing is kept when closures are added -/

section Mono

variable {code : Code} {ls ls' : List Layout} {home : Option Nat}

theorem Function.LaidOut.mono (h : ls <+: ls') {f : Function} (hf : f.LaidOut ls) :
    f.LaidOut ls' := by
  intro id hid
  obtain ⟨l, hl, ht⟩ := hf id hid
  obtain ⟨more, rfl⟩ := h
  exact ⟨l, by rw [List.getElem?_append_left (List.getElem?_eq_some_iff.mp hl).1]; exact hl, ht⟩

theorem Function.Typed.mono (h : ls <+: ls') {f : Function} (hf : f.Typed code ls home) :
    f.Typed code ls' home :=
  ⟨hf.declared, hf.laidOut.mono h, hf.self⟩

/-- A function that is typed in no closure is typed in every closure. -/
theorem Function.Typed.anywhere {f : Function} (hf : f.Typed code ls none) (home : Option Nat) :
    f.Typed code ls home := by
  refine ⟨hf.declared, hf.laidOut, fun hself => ?_⟩
  have hnone := hf.self hself
  unfold isSelfReference at hself
  split at hself
  · next heq => simp [closureId?, heq] at hnone
  · cases hself

theorem Value.WellTyped.imp {good better : Function → Prop} (h : ∀ f, good f → better f)
    {v : Value} (hv : v.WellTyped good) : v.WellTyped better := by
  induction hv with
  | bool b => exact .bool b
  | int n => exact .int n
  | float x => exact .float x
  | range r => exact .range r
  | function hf => exact .function (h _ hf)
  | array hc ht _ ih => exact .array hc ht ih
  | slice hc ht _ ih => exact .slice hc ht ih

theorem Value.Fits.mono (h : ls <+: ls') {v : Value} {ty : Ty} (hv : v.Fits code ls ty) :
    v.Fits code ls' ty :=
  ⟨hv.ty, hv.wellTyped.imp fun _ hf => hf.mono h⟩

theorem Storage.Typed.mono (h : ls <+: ls') {element : Ty} {s : Storage Value}
    (hs : s.Typed code ls element) : s.Typed code ls' element :=
  ⟨hs.category, fun v hmem => (hs.elements v hmem).mono h⟩

theorem Cell.Typed.mono (h : ls <+: ls') {ty : Ty} {c : Cell} (hc : c.Typed code ls home ty) :
    c.Typed code ls' home ty := by
  unfold Cell.Typed at hc ⊢
  split at hc
  · trivial
  · exact hc
  · exact hc
  · exact hc
  · exact ⟨hc.1, hc.2.mono h⟩
  · exact ⟨hc.1, hc.2.mono h⟩

/-- What may stand in an activation may stand in every closure. -/
theorem Cell.Typed.anywhere {ty : Ty} {c : Cell} (hc : c.Typed code ls none ty)
    (home : Option Nat) : c.Typed code ls home ty := by
  unfold Cell.Typed at hc ⊢
  split at hc
  · trivial
  · exact hc
  · exact hc
  · exact hc
  · exact ⟨hc.1, hc.2.anywhere home⟩
  · exact hc

theorem Frame.Typed.mono (h : ls <+: ls') {f : Frame} (hf : f.Typed code ls home) :
    f.Typed code ls' home :=
  fun i s hs => (hf i s hs).mono h

end Mono

/-! ## The forms of a value of a type -/

namespace Value

variable {v : Value}

theorem eq_bool_of_ty (h : v.ty = .bool) : ∃ b, v = .bool b := by
  cases v <;> first | exact ⟨_, rfl⟩ | cases h

theorem eq_int_of_ty (h : v.ty = .int) : ∃ n, v = .int n := by
  cases v <;> first | exact ⟨_, rfl⟩ | cases h

theorem eq_float_of_ty (h : v.ty = .float) : ∃ x, v = .float x := by
  cases v <;> first | exact ⟨_, rfl⟩ | cases h

theorem eq_function_of_ty {params : List Ty} {result : Ty} (h : v.ty = .function params result) :
    ∃ f, v = .function f ∧ f.target.signature = ⟨params, result⟩ := by
  cases v with
  | function f =>
    refine ⟨f, rfl, ?_⟩
    injection h with hp hr
    rw [← hp, ← hr]
  | _ => cases h

theorem eq_range_of_ty {element : Ty} (h : v.ty = .range element) :
    ∃ r, v = .range r ∧ r.element = element := by
  cases v with
  | range r => injection h with he; exact ⟨r, rfl, he⟩
  | _ => cases h

/-- A value is boxed from the carrier of its family. -/
theorem unbox_of_family {family : Family} (h : v.family = family) :
    ∃ x, family.unbox v = .ok x ∧ family.box x = v := by
  subst h
  cases v <;> exact ⟨_, rfl, rfl⟩

end Value

end TypedEval
