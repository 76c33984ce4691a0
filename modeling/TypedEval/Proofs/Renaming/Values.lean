import TypedEval.Builtin.Sequence
import TypedEval.Proofs.SelfReference.Basic

/-!
# Renaming closures and storages

The numbers that a store gives to closures and storages are names and nothing else. A **relabeling**
gives each of them another number; renaming a value puts it on every function and every array in the
value, down to the elements.

Renaming leaves alone what a program can see: kinds, types, names, sizes and texts. Each operation on
values, views, enumerations and builders, given renamed operands, gives the renamed result or the same
fault. These laws are named after the operation.
-/

namespace TypedEval

/-- **New numbers** for closures and for storages. -/
structure Relabeling where
  closures : Nat → Nat
  storages : Nat → Nat

namespace Relabeling

/-- **No two numbers become one.** -/
structure OneToOne (ρ : Relabeling) : Prop where
  closures : ∀ {i j}, ρ.closures i = ρ.closures j → i = j
  storages : ∀ {i j}, ρ.storages i = ρ.storages j → i = j

/-- One relabeling after another. -/
def andThen (ρ τ : Relabeling) : Relabeling :=
  ⟨fun i => τ.closures (ρ.closures i), fun i => τ.storages (ρ.storages i)⟩

end Relabeling

/-! ## Functions -/

/-- The same reference to the closure under its new number. -/
def ClosureRef.rename (ρ : Relabeling) : ClosureRef → ClosureRef
  | .shared id => .shared (ρ.closures id)
  | .selfReference id => .selfReference (ρ.closures id)

namespace Function

/-- The same function with its closure under the new number. -/
def rename (ρ : Relabeling) (f : Function) : Function :=
  ⟨f.target, f.closure.map (ClosureRef.rename ρ)⟩

variable (ρ τ : Relabeling) (f : Function)

@[simp] theorem target_rename : (f.rename ρ).target = f.target := rfl

@[simp] theorem ty_rename : (f.rename ρ).ty = f.ty := rfl

@[simp] theorem displayName_rename : (f.rename ρ).displayName = f.displayName := rfl

@[simp] theorem text_rename : (f.rename ρ).text = f.text := rfl

@[simp] theorem describe_rename : (f.rename ρ).describe = f.describe := by
  obtain ⟨target, closure⟩ := f
  cases closure <;> rfl

@[simp] theorem isSelfReference_rename : (f.rename ρ).isSelfReference = f.isSelfReference := by
  obtain ⟨target, _ | _ | _⟩ := f <;> rfl

theorem closureId?_rename : (f.rename ρ).closureId? = f.closureId?.map ρ.closures := by
  obtain ⟨target, _ | _ | _⟩ := f <;> rfl

theorem selfReference_rename : (f.rename ρ).selfReference = f.selfReference.rename ρ := by
  obtain ⟨target, _ | _ | _⟩ := f <;> rfl

theorem rename_rename : (f.rename ρ).rename τ = f.rename (ρ.andThen τ) := by
  obtain ⟨target, _ | _ | _⟩ := f <;> rfl

end Function

/-! ## Values -/

mutual

/-- **The same value under new numbers.** -/
def Value.rename (ρ : Relabeling) : Value → Value
  | .bool b => .bool b
  | .int n => .int n
  | .float x => .float x
  | .function f => .function (f.rename ρ)
  | .range r => .range r
  | .array ⟨id, element, storage⟩ => .array ⟨ρ.storages id, element, storage.rename ρ⟩
  | .slice ⟨⟨id, element, storage⟩, offset, step, length⟩ =>
    .slice ⟨⟨ρ.storages id, element, storage.rename ρ⟩, offset, step, length⟩

/-- The same cells under new numbers. -/
def Storage.rename (ρ : Relabeling) : Storage Value → Storage Value
  | .bools items => .bools items
  | .ints items => .ints items
  | .floats items => .floats items
  | .boxed items => .boxed (items.map fun v => v.rename ρ)

end

/-- **Induction into the elements of arrays**, where a property of a sequence may be shown from the same
property of its boxed cells. -/
@[elab_as_elim]
theorem Value.deep_induction {motive : Value → Prop} (bool : ∀ b, motive (.bool b))
    (int : ∀ n, motive (.int n)) (float : ∀ x, motive (.float x))
    (function : ∀ f, motive (.function f)) (range : ∀ r, motive (.range r))
    (array : ∀ a : ArrayValue, (∀ v ∈ a.storage.references, motive v) → motive (.array a))
    (slice : ∀ w : View, (∀ v ∈ w.array.storage.references, motive v) → motive (.slice w))
    (v : Value) : motive v := by
  refine Value.rename.induct motive (fun s => ∀ v ∈ s.references, motive v) bool int float function
    range (fun _ _ _ ih => array _ ih) (fun _ _ _ _ _ _ ih => slice _ ih) ?_ ?_ ?_ ?_ v
  · intro items v hv
    cases hv
  · intro items v hv
    cases hv
  · intro items v hv
    cases hv
  · exact fun items ih v hv => ih v (Array.mem_toList_iff.mp hv)

/-- The same array under new numbers. -/
def ArrayOf.rename (ρ : Relabeling) (a : ArrayValue) : ArrayValue :=
  ⟨ρ.storages a.id, a.element, a.storage.rename ρ⟩

/-- The same view of the array under its new number. -/
def ViewOf.rename (ρ : Relabeling) (v : View) : View := { v with array := v.array.rename ρ }

/-- What a node of a family hands over, under new numbers. -/
def Family.rename (ρ : Relabeling) : (family : Family) → Carrier family → Carrier family
  | .bool, b => b
  | .int, n => n
  | .float, x => x
  | .function, f => f.rename ρ
  | .reference, v => v.rename ρ

section

variable (ρ τ : Relabeling)

namespace Storage

variable (s : Storage Value)

@[simp] theorem size_rename : (s.rename ρ).size = s.size := by
  cases s <;> simp [rename, size]

@[simp] theorem rename_empty (category : Category) :
    (empty category : Storage Value).rename ρ = empty category := by
  cases category <;> simp [rename, empty]

theorem read_rename (p : UInt64) : (s.rename ρ).read p = (s.read p).map (Value.rename ρ) := by
  cases s with
  | boxed items =>
    cases h : items[p.toNat]? <;> simp [rename, read, h, outside, size, Except.map]
  | _ items =>
    cases h : items[p.toNat]? <;> simp [rename, read, h, Except.map, Value.rename]

/-- Relabelings that rename the boxed cells alike rename the storage alike. -/
theorem rename_congr {s : Storage Value} {ρ τ : Relabeling}
    (h : ∀ v ∈ s.references, v.rename ρ = v.rename τ) : s.rename ρ = s.rename τ := by
  cases s with
  | boxed items =>
    simp only [rename, boxed.injEq]
    exact Array.map_congr_left fun v hv => h v (Array.mem_toList_iff.mpr hv)
  | _ items => simp only [rename]

theorem rename_rename {s : Storage Value} {ρ τ : Relabeling}
    (h : ∀ v ∈ s.references, (v.rename ρ).rename τ = v.rename (ρ.andThen τ)) :
    (s.rename ρ).rename τ = s.rename (ρ.andThen τ) := by
  cases s with
  | boxed items =>
    simp only [rename, Array.map_map, boxed.injEq]
    exact Array.map_congr_left fun v hv => h v (Array.mem_toList_iff.mpr hv)
  | _ items => simp only [rename]

/-- A relabeling leaves a storage alone just if it leaves the boxed cells alone. -/
theorem rename_eq_self {s : Storage Value} {ρ : Relabeling} :
    s.rename ρ = s ↔ ∀ v ∈ s.references, v.rename ρ = v := by
  cases s with
  | boxed items =>
    simp only [rename, boxed.injEq]
    constructor
    · intro h v hv
      obtain ⟨i, hi⟩ := Array.getElem?_of_mem (Array.mem_toList_iff.mp hv)
      have same := congrArg (·[i]?) h
      simpa [hi] using same
    · intro h
      have fixed : ∀ v ∈ items, v.rename ρ = id v := fun v hv => h v (Array.mem_toList_iff.mpr hv)
      rw [Array.map_congr_left fixed, Array.map_id]
  | _ items => simp [rename, references]

end Storage

namespace Value

@[simp] theorem rename_bool (b : Bool) : (Value.bool b).rename ρ = .bool b := by rw [rename]

@[simp] theorem rename_int (n : Int64) : (Value.int n).rename ρ = .int n := by rw [rename]

@[simp] theorem rename_float (x : Float) : (Value.float x).rename ρ = .float x := by rw [rename]

@[simp] theorem rename_range (r : Range) : (Value.range r).rename ρ = .range r := by rw [rename]

@[simp] theorem rename_function (f : Function) :
    (Value.function f).rename ρ = .function (f.rename ρ) := by
  rw [rename]

@[simp] theorem rename_array (a : ArrayValue) :
    (Value.array a).rename ρ = .array (a.rename ρ) := by
  obtain ⟨id, element, storage⟩ := a
  rw [rename, ArrayOf.rename]

@[simp] theorem rename_slice (v : View) : (Value.slice v).rename ρ = .slice (v.rename ρ) := by
  obtain ⟨⟨id, element, storage⟩, offset, step, length⟩ := v
  rw [rename, ViewOf.rename, ArrayOf.rename]

variable (v : Value)

@[simp] theorem kind_rename : (v.rename ρ).kind = v.kind := by
  cases v <;> simp [kind]

@[simp] theorem family_rename : (v.rename ρ).family = v.family := by
  cases v <;> simp [family]

/-- **A renamed value is of the same type.** -/
@[simp] theorem ty_rename : (v.rename ρ).ty = v.ty := by
  cases v <;> simp [ty, ArrayOf.rename, ViewOf.rename, ViewOf.element]

/-- **Renaming twice is renaming once**, by the one relabeling after the other. -/
theorem rename_rename : (v.rename ρ).rename τ = v.rename (ρ.andThen τ) := by
  induction v using deep_induction with
  | bool | int | float | range => simp
  | function f => simp [f.rename_rename]
  | array a ih => simp [ArrayOf.rename, Storage.rename_rename ih, Relabeling.andThen]
  | slice w ih => simp [ViewOf.rename, ArrayOf.rename, Storage.rename_rename ih, Relabeling.andThen]

/-- Relabelings that agree on the functions of a value and on all storages rename it alike. -/
theorem rename_congr {v : Value} {ρ τ : Relabeling}
    (hv : v.Holds fun f => f.rename ρ = f.rename τ)
    (storages : ∀ i, ρ.storages i = τ.storages i) : v.rename ρ = v.rename τ := by
  induction hv with
  | bool | int | float | range => simp
  | function hf => simp [hf]
  | array _ ih => simp [ArrayOf.rename, storages, Storage.rename_congr ih]
  | slice _ ih => simp [ViewOf.rename, ArrayOf.rename, storages, Storage.rename_congr ih]

/-! ### Unboxing -/

@[simp] theorem expectBool_rename : (v.rename ρ).expectBool = v.expectBool := by
  cases v <;> simp [expectBool, misfit, kind]

@[simp] theorem expectInt_rename : (v.rename ρ).expectInt = v.expectInt := by
  cases v <;> simp [expectInt, misfit, kind]

@[simp] theorem expectFloat_rename : (v.rename ρ).expectFloat = v.expectFloat := by
  cases v <;> simp [expectFloat, misfit, kind]

@[simp] theorem expectRange_rename : (v.rename ρ).expectRange = v.expectRange := by
  cases v <;> simp [expectRange, misfit, kind]

@[simp] theorem elementType_rename : (v.rename ρ).elementType = v.elementType := by
  cases v <;>
    simp [elementType, misfit, kind, ArrayOf.rename, ViewOf.rename, ViewOf.element]

theorem expectFunction_rename :
    (v.rename ρ).expectFunction = v.expectFunction.map (Function.rename ρ) := by
  cases v <;> simp [expectFunction, misfit, kind, Except.map]

theorem expectView_rename : (v.rename ρ).expectView = v.expectView.map (ViewOf.rename ρ) := by
  cases v <;>
    simp [expectView, misfit, kind, Except.map, ViewOf.whole, ViewOf.rename, ArrayOf.rename,
      ArrayOf.size]

end Value

namespace Family

theorem box_rename (family : Family) (x : Carrier family) :
    family.box (family.rename ρ x) = (family.box x).rename ρ := by
  cases family <;> simp [box, rename]

theorem unbox_rename (family : Family) (v : Value) :
    family.unbox (v.rename ρ) = (family.unbox v).map (family.rename ρ) := by
  cases family with
  | bool | int | float => cases h : v <;> simp [unbox, Value.expectBool, Value.expectInt,
      Value.expectFloat, Value.misfit, Except.map, rename, Value.kind]
  | function => exact v.expectFunction_rename ρ
  | reference => rfl

end Family

/-! ## Views -/

namespace ArrayOf

variable (a : ArrayValue) (p : UInt64)

@[simp] theorem size_rename : (a.rename ρ).size = a.size := a.storage.size_rename ρ

theorem readBool_rename : (a.rename ρ).readBool p = a.readBool p := by
  obtain ⟨id, element, storage⟩ := a
  cases storage <;> simp [readBool, rename, Storage.rename]

theorem readInt_rename : (a.rename ρ).readInt p = a.readInt p := by
  obtain ⟨id, element, storage⟩ := a
  cases storage <;> simp [readInt, rename, Storage.rename]

theorem readFloat_rename : (a.rename ρ).readFloat p = a.readFloat p := by
  obtain ⟨id, element, storage⟩ := a
  cases storage <;> simp [readFloat, rename, Storage.rename]

end ArrayOf

namespace ViewOf

variable (v : View)

@[simp] theorem whole_rename (a : ArrayValue) : (whole a).rename ρ = whole (a.rename ρ) := by
  simp [whole, rename]

@[simp] theorem isWhole_rename : (v.rename ρ).isWhole = v.isWhole := by
  unfold isWhole
  rw [show (v.rename ρ).array.size = v.array.size from v.array.size_rename ρ]
  rfl

theorem get_rename (i : Int64) : (v.rename ρ).get i = (v.get i).map (Value.rename ρ) := by
  show (v.locate i >>= (v.array.storage.rename ρ).read) = _
  exact bind_congr_map fun p => v.array.storage.read_rename ρ p

theorem getAs_rename (family : Family) (i : Int64) :
    (v.rename ρ).getAs family i = (v.getAs family i).map (family.rename ρ) := by
  cases family with
  | bool =>
    show (v.locate i >>= (v.array.rename ρ).readBool) = (v.locate i >>= v.array.readBool).map id
    rw [Except.map_id]
    exact congrArg (v.locate i >>= ·) (funext fun p => v.array.readBool_rename ρ p)
  | int =>
    show (v.locate i >>= (v.array.rename ρ).readInt) = (v.locate i >>= v.array.readInt).map id
    rw [Except.map_id]
    exact congrArg (v.locate i >>= ·) (funext fun p => v.array.readInt_rename ρ p)
  | float =>
    show (v.locate i >>= (v.array.rename ρ).readFloat) = (v.locate i >>= v.array.readFloat).map id
    rw [Except.map_id]
    exact congrArg (v.locate i >>= ·) (funext fun p => v.array.readFloat_rename ρ p)
  | function =>
    refine bind_eq_map (v.get_rename ρ i) fun x => ?_
    rw [x.expectFunction_rename ρ, lift_defect_map]
    rfl
  | reference => exact v.get_rename ρ i

theorem slice_rename (r : IntRange) :
    (v.rename ρ).slice r = (v.slice r).map (ViewOf.rename ρ) := by
  obtain ⟨array, offset, step, length⟩ := v
  show ViewOf.slice ⟨array.rename ρ, offset, step, length⟩ r = _
  refine bind_congr_map fun first => bind_congr_map fun last => ?_
  simp only
  split
  · rfl
  · split
    · exact bind_congr_map fun step => bind_congr_map fun offset => rfl
    · split
      · exact bind_congr_map fun step => bind_congr_map fun offset => rfl
      · rfl

end ViewOf

/-! ## Builders -/

namespace Builder

/-- The same array under construction, under new numbers. -/
def rename (ρ : Relabeling) (b : Builder) : Builder := ⟨b.element, b.storage.rename ρ⟩

variable (b : Builder)

@[simp] theorem new_rename (element : Ty) : (new element).rename ρ = new element := by
  simp [new, rename]

theorem finish_rename (id : Nat) :
    (b.rename ρ).finish (ρ.storages id) = (b.finish id).rename ρ := rfl

theorem store_rename (v : Value) : (b.rename ρ).store (v.rename ρ) = (b.store v).map (rename ρ) := by
  obtain ⟨element, storage⟩ := b
  cases storage with
  | boxed items => simp [store, rename, Storage.rename, Except.map, pure, Except.pure]
  | bools items =>
    simp only [store, rename, Storage.rename, v.expectBool_rename]
    refine bind_congr_map fun x => ?_
    simp [rename, Storage.rename, Except.map, pure, Except.pure]
  | ints items =>
    simp only [store, rename, Storage.rename, v.expectInt_rename]
    refine bind_congr_map fun x => ?_
    simp [rename, Storage.rename, Except.map, pure, Except.pure]
  | floats items =>
    simp only [store, rename, Storage.rename, v.expectFloat_rename]
    refine bind_congr_map fun x => ?_
    simp [rename, Storage.rename, Except.map, pure, Except.pure]

theorem push_rename (v : Value) : (b.rename ρ).push (v.rename ρ) = (b.push v).map (rename ρ) := by
  unfold push
  rw [v.family_rename]
  show (if v.family = b.element.family then _ else _) = _
  split
  · exact b.store_rename ρ v
  · rfl

theorem pushAs_rename (family : Family) (x : Carrier family) :
    (b.rename ρ).pushAs family (family.rename ρ x) = (b.pushAs family x).map (rename ρ) := by
  cases family with
  | bool | int | float =>
    obtain ⟨element, storage⟩ := b
    cases storage <;>
      simp [pushAs, pushBool, pushInt, pushFloat, rename, Storage.rename, Family.rename, Except.map]
  | function =>
    show (b.rename ρ).push (.function (x.rename ρ)) = _
    rw [← Value.rename_function]
    exact b.push_rename ρ _
  | reference => exact b.push_rename ρ x

end Builder

/-! ## Enumerations -/

namespace Elements

/-- The same enumeration under new numbers. -/
def rename (ρ : Relabeling) : Elements → Elements
  | .cells storage next step remaining => .cells (storage.rename ρ) next step remaining
  | it => it

variable (it : Elements)

@[simp] theorem remaining_rename : (it.rename ρ).remaining = it.remaining := by
  cases it <;> rfl

theorem next?_rename :
    (it.rename ρ).next? = it.next?.map fun (v, rest) => (v.map (Value.rename ρ), rest.rename ρ) := by
  cases it with
  | cells storage next step remaining =>
    cases remaining with
    | zero => rfl
    | succ n => simp [rename, next?, Storage.read_rename]
  | ints it =>
    simp only [rename, next?, Option.map_map]
    cases it.next? <;> simp [Except.map]
  | floats it =>
    simp only [rename, next?, Option.map_map]
    cases it.next? <;> simp [Except.map]

theorem fill_rename (limit : Nat) (b : Builder) :
    (it.rename ρ).fill limit (b.rename ρ) = (it.fill limit b).map (Builder.rename ρ) := by
  induction limit generalizing it b with
  | zero => rfl
  | succ limit ih =>
    unfold fill
    rw [it.next?_rename ρ]
    cases it.next? with
    | none => rfl
    | some r =>
      obtain ⟨v, rest⟩ := r
      refine bind_eq_map rfl fun x => ?_
      exact bind_eq_map (b.push_rename ρ x) fun c => ih rest c

end Elements

@[simp] theorem ViewOf.elements_rename (v : View) :
    (v.rename ρ).elements = v.elements.rename ρ := rfl

theorem ViewOf.copy_rename (v : View) (id : Nat) :
    (v.rename ρ).copy (ρ.storages id) = (v.copy id).map (ArrayOf.rename ρ) := by
  have filled := v.elements.fill_rename ρ v.length (.new v.element)
  rw [Builder.new_rename] at filled
  exact bind_eq_map filled fun b => rfl

theorem Value.elements_rename (v : Value) :
    (v.rename ρ).elements = v.elements.map (Elements.rename ρ) := by
  cases v with
  | array a => simp [elements, Except.map, ← ViewOf.whole_rename]
  | slice w => simp [elements, Except.map]
  | range r =>
    rw [rename_range]
    show (liftM r.elements : Except Fault Elements) = _
    rw [show (Value.range r).elements = (liftM r.elements : Except Fault Elements) from rfl,
      ← lift_cause_map]
    congr 1
    cases r with
    | int r => cases h : r.steps <;> simp only [Range.elements, h] <;> rfl
    | float r => cases h : r.steps <;> simp only [Range.elements, h] <;> rfl
  | _ => simp [elements, Except.map, misfit, kind]

/-! ## Texts -/

theorem Storage.textAt_rename {s : Storage Value} (h : ∀ v ∈ s.references, (v.rename ρ).text = v.text)
    (p : UInt64) : (s.rename ρ).textAt p = s.textAt p := by
  cases s with
  | boxed items =>
    by_cases hp : p.toNat < items.size
    · simp [rename, textAt, hp, h _ (Array.mem_toList_iff.mpr (Array.getElem_mem hp))]
    · simp [rename, textAt, hp, outside, size]
  | _ items => simp [rename]

/-- **A renamed value is shown alike.** -/
@[simp] theorem Value.text_rename (v : Value) : (v.rename ρ).text = v.text := by
  induction v using deep_induction with
  | bool | int | float | range => simp
  | function f => simp [text]
  | array a ih =>
    obtain ⟨id, element, storage⟩ := a
    simp [text, ArrayOf.rename, Storage.textAt_rename ρ ih]
  | slice w ih =>
    obtain ⟨⟨id, element, storage⟩, offset, step, length⟩ := w
    simp [text, ViewOf.rename, ArrayOf.rename, Storage.textAt_rename ρ ih]

@[simp] theorem Value.describe_rename (v : Value) : (v.rename ρ).describe = v.describe := by
  cases v with
  | function f => simp [describe]
  | array a =>
    have shown := (Value.array a).text_rename ρ
    rw [rename_array] at shown ⊢
    simp only [describe, kind, shown]
  | slice w =>
    have shown := (Value.slice w).text_rename ρ
    rw [rename_slice] at shown ⊢
    simp only [describe, kind, shown]
  | _ => simp

end

end TypedEval
