import TypedEval.Builtin.Sequence
import TypedEval.Proofs.Typing.Basic

/-!
# Sequences of a type

Cells are read from a storage in the category of the element type and pushed to one, so no access
asks a storage for another category. Enumerations of arrays, slices and ranges give elements of the
element type. What remains is a position outside storage: a view may hold one, and reading it is a
crash and no defect.

All of this holds over any choice of the functions that are admitted in values.
-/

namespace TypedEval

/-- **A value is of a type**, over the functions that are admitted. -/
structure Value.Of (good : Function → Prop) (ty : Ty) (v : Value) : Prop where
  ty : v.ty = ty
  wellTyped : v.WellTyped good

/-- **A storage is of an element type**: it is in the type's category, and its boxed cells are of the
type. -/
structure Storage.Of (good : Function → Prop) (element : Ty) (s : Storage Value) : Prop where
  category : s.category = element.category
  elements : ∀ v ∈ s.references, v.Of good element

section

variable {good : Function → Prop} {element : Ty}

/-! ## Storages -/

namespace Storage

variable {s : Storage Value}

theorem Of.empty : (empty element.category : Storage Value).Of good element := by
  refine ⟨category_empty _, ?_⟩
  cases element.category <;> intro v hv <;> cases hv

/-- A finished array of such storage. -/
theorem Of.array (hs : s.Of good element) (id : Nat) :
    (Value.array ⟨id, element, s⟩).Of good (.array element) :=
  ⟨rfl, .array hs.category (fun v hv => (hs.elements v hv).ty)
    (fun v hv => (hs.elements v hv).wellTyped)⟩

/-- A view of such storage, whatever positions it has. -/
theorem Of.slice {v : View} (hs : v.array.storage.Of good v.array.element) :
    (Value.slice v).Of good (.array v.array.element) :=
  ⟨rfl, .slice hs.category (fun x hx => (hs.elements x hx).ty)
    (fun x hx => (hs.elements x hx).wellTyped)⟩

/-- **Reading a storage** gives an element of its type, or leaves the storage. -/
theorem Of.read (hs : s.Of good element) (p : UInt64) :
    Gives (s.read p) fun v => v.Of good element := by
  obtain ⟨hc, he⟩ := hs
  cases s with
  | bools items =>
    have hty := Ty.eq_bool_of_category hc
    cases h : items[p.toNat]? with
    | none => simp only [Storage.read, h]; trivial
    | some b => simp only [Storage.read, h]; exact ⟨hty.symm, .bool b⟩
  | ints items =>
    have hty := Ty.eq_int_of_category hc
    cases h : items[p.toNat]? with
    | none => simp only [Storage.read, h]; trivial
    | some n => simp only [Storage.read, h]; exact ⟨hty.symm, .int n⟩
  | floats items =>
    have hty := Ty.eq_float_of_category hc
    cases h : items[p.toNat]? with
    | none => simp only [Storage.read, h]; trivial
    | some x => simp only [Storage.read, h]; exact ⟨hty.symm, .float x⟩
  | boxed items =>
    cases h : items[p.toNat]? with
    | none => simp only [Storage.read, h]; trivial
    | some v =>
      simp only [Storage.read, h]
      exact he v (Array.mem_toList_iff.mpr (Array.mem_of_getElem? h))

end Storage

/-! ## Views -/

/-- A value of an array type has a view of a storage of its element type. -/
theorem Value.Of.view {v : Value} (hv : v.Of good (.array element)) :
    ∃ w, v.expectView = .ok w ∧ w.array.element = element ∧ w.array.storage.Of good element := by
  obtain ⟨hty, hw⟩ := hv
  cases hw with
  | array hc ht he =>
    injection hty with hty
    subst hty
    exact ⟨_, rfl, rfl, hc, fun x hx => ⟨ht x hx, he x hx⟩⟩
  | slice hc ht he =>
    injection hty with hty
    subst hty
    exact ⟨_, rfl, rfl, hc, fun x hx => ⟨ht x hx, he x hx⟩⟩
  | _ => cases hty

namespace ViewOf

theorem position_gives {α : Type} (v : ViewOf α) (k : Nat) :
    Gives (v.position k) fun _ => True := by
  unfold position
  simp only
  split
  · trivial
  · trivial

theorem locate_gives {α : Type} (v : ViewOf α) (i : Int64) : Gives (v.locate i) fun _ => True := by
  unfold locate
  split
  · exact v.position_gives _
  · trivial

variable {v : View}

theorem get_of (hv : v.array.storage.Of good element) (i : Int64) :
    Gives (v.get i) fun x => x.Of good element :=
  (v.locate_gives i).bind fun p _ => hv.read p

/-- **An indexed element is the boxed element**, unboxed to the family of its type. -/
theorem getAs_eq_get (hv : v.array.storage.Of good element) {family : Family}
    (hfamily : element.family = family) (i : Int64) :
    v.getAs family i = (v.get i >>= fun x => liftM (family.unbox x)) := by
  have hc := hv.category
  cases family with
  | bool =>
    cases Ty.eq_bool_of_family hfamily
    show (v.locate i >>= v.array.readBool) = (v.locate i >>= v.array.storage.read) >>= _
    cases v.locate i with
    | error e => rfl
    | ok p =>
      show v.array.readBool p = v.array.storage.read p >>= _
      unfold ArrayOf.readBool
      cases hs : v.array.storage with
      | bools items => cases h : items[p.toNat]? <;> simp only [Storage.read, h] <;> rfl
      | _ => rw [hs] at hc; cases hc
  | int =>
    cases Ty.eq_int_of_family hfamily
    show (v.locate i >>= v.array.readInt) = (v.locate i >>= v.array.storage.read) >>= _
    cases v.locate i with
    | error e => rfl
    | ok p =>
      show v.array.readInt p = v.array.storage.read p >>= _
      unfold ArrayOf.readInt
      cases hs : v.array.storage with
      | ints items => cases h : items[p.toNat]? <;> simp only [Storage.read, h] <;> rfl
      | _ => rw [hs] at hc; cases hc
  | float =>
    cases Ty.eq_float_of_family hfamily
    show (v.locate i >>= v.array.readFloat) = (v.locate i >>= v.array.storage.read) >>= _
    cases v.locate i with
    | error e => rfl
    | ok p =>
      show v.array.readFloat p = v.array.storage.read p >>= _
      unfold ArrayOf.readFloat
      cases hs : v.array.storage with
      | floats items => cases h : items[p.toNat]? <;> simp only [Storage.read, h] <;> rfl
      | _ => rw [hs] at hc; cases hc
  | function => rfl
  | reference =>
    show v.get i = v.get i >>= _
    cases v.get i <;> rfl

/-- **An indexed element is of the element type**, in the form that a node of its family hands over. -/
theorem getAs_of (hv : v.array.storage.Of good element) {family : Family}
    (hfamily : element.family = family) (i : Int64) :
    Gives (v.getAs family i) fun x => (family.box x).Of good element := by
  rw [getAs_eq_get hv hfamily]
  refine (get_of hv i).bind fun x hx => ?_
  obtain ⟨y, hy, hbox⟩ := Value.unbox_of_family (by rw [← Value.family_ty, hx.ty, hfamily])
  rw [lift_defect_eq_ok.mpr hy]
  show (family.box y).Of good element
  rw [hbox]
  exact hx

/-- A slice is a view of the same array. -/
theorem slice_gives (v : View) (r : IntRange) : Gives (v.slice r) fun w => w.array = v.array := by
  unfold slice
  refine Gives.bind (gives_of_cause fun _ _ => trivial : Gives _ fun _ => True) fun first _ => ?_
  refine Gives.bind (gives_of_cause fun _ _ => trivial : Gives _ fun _ => True) fun last _ => ?_
  simp only
  split
  · rfl
  · have rest (step : Int64) (length : Nat) : Gives (do
        return { v with offset := ← v.position (first - 1).toNat, step, length })
        fun w : View => w.array = v.array :=
      (v.position_gives _).bind fun _ _ => rfl
    split
    · exact rest _ _
    · split
      · exact rest _ _
      · trivial

end ViewOf

/-! ## Builders -/

namespace Builder

/-- **A builder is of an element type.** -/
structure Of (good : Function → Prop) (ty : Ty) (b : Builder) : Prop where
  element : b.element = ty
  storage : b.storage.Of good ty

variable {b : Builder}

theorem Of.new : (Builder.new element).Of good element := ⟨rfl, .empty⟩

theorem Of.finish (hb : b.Of good element) (id : Nat) :
    (Value.array (b.finish id)).Of good (.array element) := by
  obtain ⟨rfl, hs⟩ := hb
  exact hs.array id

/-- **A value of the element type can be pushed.** -/
theorem Of.push (hb : b.Of good element) {v : Value} (hv : v.Of good element) :
    ∃ c, b.push v = .ok c ∧ c.Of good element := by
  obtain ⟨element, storage⟩ := b
  obtain ⟨rfl, hc, he⟩ := hb
  have hfamily : v.family = element.family := by rw [← Value.family_ty, hv.ty]
  simp only [Builder.push, if_pos hfamily]
  cases storage with
  | bools items =>
    cases Ty.eq_bool_of_category hc
    obtain ⟨x, rfl⟩ := Value.eq_bool_of_ty hv.ty
    exact ⟨_, rfl, rfl, rfl, fun _ hmem => (nomatch hmem)⟩
  | ints items =>
    cases Ty.eq_int_of_category hc
    obtain ⟨x, rfl⟩ := Value.eq_int_of_ty hv.ty
    exact ⟨_, rfl, rfl, rfl, fun _ hmem => (nomatch hmem)⟩
  | floats items =>
    cases Ty.eq_float_of_category hc
    obtain ⟨x, rfl⟩ := Value.eq_float_of_ty hv.ty
    exact ⟨_, rfl, rfl, rfl, fun _ hmem => (nomatch hmem)⟩
  | boxed items =>
    refine ⟨_, rfl, rfl, hc, fun w hw => ?_⟩
    simp only [Storage.references, Array.toList_push, List.mem_append, List.mem_singleton] at hw
    obtain hold | rfl := hw
    · exact he w hold
    · exact hv

/-- What a node of the element's family hands over is pushed as its boxed form is. -/
theorem pushAs_eq_push (hc : b.storage.category = b.element.category) {family : Family}
    (hfamily : b.element.family = family) (x : Carrier family) :
    b.pushAs family x = b.push (family.box x) := by
  obtain ⟨element, storage⟩ := b
  cases family with
  | bool =>
    cases Ty.eq_bool_of_family hfamily
    cases storage <;> first | rfl | cases hc
  | int =>
    cases Ty.eq_int_of_family hfamily
    cases storage <;> first | rfl | cases hc
  | float =>
    cases Ty.eq_float_of_family hfamily
    cases storage <;> first | rfl | cases hc
  | function => rfl
  | reference => rfl

theorem Of.pushAs_eq (hb : b.Of good element) {family : Family} (hfamily : element.family = family)
    (x : Carrier family) : b.pushAs family x = b.push (family.box x) :=
  pushAs_eq_push (by rw [hb.element]; exact hb.storage.category)
    (by rw [hb.element]; exact hfamily) x

theorem withCapacity_eq_ok [Allocator] {count : Nat} (h : withCapacity element count = .ok b) :
    b = .new element := by
  obtain ⟨_, _, h⟩ := bind_eq_ok.mp h
  cases h
  rfl

end Builder

/-! ## Enumerations -/

namespace Elements

/-- **An enumeration of elements of a type.** -/
def Of (good : Function → Prop) (element : Ty) : Elements → Prop
  | .cells storage _ _ _ => storage.Of good element
  | .ints _ => element = .int
  | .floats _ => element = .float

/-- **The next element of an enumeration is of its type**, and so is the rest. -/
theorem Of.next {it rest : Elements} {v : Except Fault Value} (hit : it.Of good element)
    (h : it.next? = some (v, rest)) :
    Gives v (fun x => x.Of good element) ∧ rest.Of good element := by
  cases it with
  | cells storage next step remaining =>
    cases remaining with
    | zero => cases h
    | succ n => cases h; exact ⟨Storage.Of.read hit next, hit⟩
  | ints it =>
    obtain ⟨⟨n, r⟩, _, heq⟩ := Option.map_eq_some_iff.mp h
    cases heq
    exact ⟨⟨hit.symm, .int n⟩, hit⟩
  | floats it =>
    obtain ⟨⟨x, r⟩, _, heq⟩ := Option.map_eq_some_iff.mp h
    cases heq
    exact ⟨⟨hit.symm, .float x⟩, hit⟩

/-- Elements of its type can be added to a builder. -/
theorem Of.fill {it : Elements} (hit : it.Of good element) {b : Builder} (hb : b.Of good element)
    (limit : Nat) : Gives (it.fill limit b) fun c => c.Of good element := by
  induction limit generalizing it b with
  | zero => exact hb
  | succ limit ih =>
    unfold Elements.fill
    split
    · exact hb
    · next v rest hnext =>
      obtain ⟨hv, hrest⟩ := hit.next hnext
      refine hv.bind fun x hx => ?_
      obtain ⟨c, hc, hof⟩ := hb.push hx
      rw [hc]
      exact ih hrest hof

end Elements

/-- **A sequence enumerates elements of its type.** -/
theorem Value.Of.elements {v : Value} {sequence : Ty} (hv : v.Of good sequence)
    (hs : sequence.element? = some element) :
    v.elementType = .ok element ∧ Gives v.elements fun it => it.Of good element := by
  cases sequence with
  | array e =>
    cases hs
    obtain ⟨w, hw, rfl, hstorage⟩ := hv.view
    cases v with
    | array a => cases hw; exact ⟨rfl, hstorage⟩
    | slice w' => cases hw; exact ⟨rfl, hstorage⟩
    | _ => cases hw
  | range e =>
    cases hs
    obtain ⟨r, rfl, rfl⟩ := Value.eq_range_of_ty hv.ty
    refine ⟨rfl, gives_of_cause fun it hit => ?_⟩
    cases r with
    | int r => obtain ⟨_, _, h⟩ := bind_eq_ok.mp hit; cases h; rfl
    | float r => obtain ⟨_, _, h⟩ := bind_eq_ok.mp hit; cases h; rfl
  | _ => cases hs

/-- A copied view is an array of its element type. -/
theorem ViewOf.copy_of {v : View} (hv : v.array.storage.Of good v.array.element) (id : Nat) :
    Gives (v.copy id) fun a => (Value.array a).Of good (.array v.array.element) := by
  have hit : v.elements.Of good v.array.element := hv
  exact (hit.fill .new v.length).bind fun b hb => hb.finish id

end

/-- The standard sequences have the element types that they are registered with. -/
theorem Builtin.element?_of_mem_sequences {p : Ty × Ty} (hp : p ∈ Builtin.sequences) :
    p.1.element? = some p.2 := by
  revert p
  decide

end TypedEval
