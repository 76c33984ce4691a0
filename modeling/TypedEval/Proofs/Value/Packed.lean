import TypedEval.Proofs.Value.Members
import TypedEval.Proofs.Value.Sequences

/-!
# Arrays of a list of elements

`Storage.pack` is the storage of a list of values, in the category of their type: what a builder holds
after it took them in order. So an array that some builder finished is a packed one, and each of its
elements is of the family of the element type (`ArrayOf.Built.family`): a builder takes no other, boxed
or unboxed.
-/

namespace TypedEval

/-! ## Storage of a list -/

/-- The values of a family, unboxed. -/
def Family.unboxed (family : Family) (vs : List Value) : List (Carrier family) :=
  vs.filterMap fun v => (family.unbox v).toOption

theorem Family.unboxed_append (family : Family) (vs : List Value) {v : Value}
    {x : Carrier family} (hx : family.unbox v = .ok x) :
    family.unboxed (vs ++ [v]) = family.unboxed vs ++ [x] := by
  simp [Family.unboxed, hx, Except.toOption]

theorem Family.map_box_unboxed {family : Family} {vs : List Value}
    (h : ∀ v ∈ vs, v.family = family) : (family.unboxed vs).map family.box = vs := by
  induction vs with
  | nil => rfl
  | cons v vs ih =>
    obtain ⟨hv, hvs⟩ := List.forall_mem_cons.mp h
    obtain ⟨x, hx, hbox⟩ := Value.unbox_of_family hv
    have head : (family.unbox v).toOption = some x := by rw [hx]; rfl
    simp only [Family.unboxed, List.filterMap_cons, head, List.map_cons, hbox]
    exact congrArg (v :: ·) (ih hvs)

/-- The storage of a category with the given elements. -/
def Storage.pack (c : Category) (vs : List Value) : Storage Value :=
  match c with
  | .bool => .bools (Family.bool.unboxed vs).toArray
  | .int => .ints (Family.int.unboxed vs).toArray
  | .float => .floats (Family.float.unboxed vs).toArray
  | .reference => .boxed vs.toArray

/-- The array of the given elements. -/
def ArrayOf.packed (id : Nat) (element : Ty) (vs : List Value) : ArrayValue :=
  ⟨id, element, .pack element.category vs⟩

/-- The builder that the given elements were added to. -/
def Builder.packed (element : Ty) (vs : List Value) : Builder := ⟨element, .pack element.category vs⟩

theorem Builder.new_eq_packed (element : Ty) : Builder.new element = .packed element [] := by
  unfold Builder.new Builder.packed Storage.pack Storage.empty
  cases element.category <;> rfl

/-- A value that may be pushed. -/
def Ty.receive (element : Ty) (v : Value) : Except Fault Value :=
  if v.family = element.family then .ok v else .error (.assertion .elementFamily)

theorem Ty.receive_of_family {element : Ty} {v : Value} (h : v.family = element.family) :
    element.receive v = .ok v := if_pos h

/-- **A pushed value is one more element.** -/
theorem Builder.push_packed (element : Ty) (vs : List Value) (v : Value) :
    (Builder.packed element vs).push v =
      (element.receive v).map fun v => .packed element (vs ++ [v]) := by
  unfold Builder.push Ty.receive
  show (if v.family = element.family then _ else _) = _
  split
  · next hfamily =>
    show (Builder.packed element vs).store v = .ok _
    obtain ⟨x, hx, -⟩ := Value.unbox_of_family hfamily
    unfold Builder.packed Storage.pack Builder.store
    cases hc : element.category with
    | bool =>
      cases Ty.eq_bool_of_category hc.symm
      have hx : v.expectBool = .ok x := hx
      simp only [hx, Family.unboxed_append .bool vs hx, List.push_toArray]
      rfl
    | int =>
      cases Ty.eq_int_of_category hc.symm
      have hx : v.expectInt = .ok x := hx
      simp only [hx, Family.unboxed_append .int vs hx, List.push_toArray]
      rfl
    | float =>
      cases Ty.eq_float_of_category hc.symm
      have hx : v.expectFloat = .ok x := hx
      simp only [hx, Family.unboxed_append .float vs hx, List.push_toArray]
      rfl
    | reference =>
      simp only [List.push_toArray]
      rfl
  · rfl

theorem Builder.push_packed_of_family {element : Ty} (vs : List Value) {v : Value}
    (h : v.family = element.family) :
    (Builder.packed element vs).push v = .ok (.packed element (vs ++ [v])) := by
  rw [push_packed, Ty.receive_of_family h]
  rfl

/-- The array of elements of a family has these elements. -/
theorem ArrayOf.values_packed (id : Nat) {element : Ty} {vs : List Value}
    (h : ∀ v ∈ vs, v.family = element.family) :
    (ArrayOf.packed id element vs).storage.values = vs := by
  show (Storage.pack element.category vs).values = vs
  unfold Storage.pack Storage.values
  cases hc : element.category with
  | bool => cases Ty.eq_bool_of_category hc.symm; exact Family.map_box_unboxed h
  | int => cases Ty.eq_int_of_category hc.symm; exact Family.map_box_unboxed h
  | float => cases Ty.eq_float_of_category hc.symm; exact Family.map_box_unboxed h
  | reference => rfl

theorem Storage.category_pack (c : Category) (vs : List Value) : (pack c vs).category = c := by
  cases c <;> rfl

/-- Values of the element type's family are pushed one after the other. -/
theorem Builder.pushAll_packed {element : Ty} (vs : List Value) {xs : List Value}
    (h : ∀ x ∈ xs, x.family = element.family) :
    (Builder.packed element vs).pushAll xs = .ok (.packed element (vs ++ xs)) := by
  induction xs generalizing vs with
  | nil => rw [List.append_nil]; rfl
  | cons x xs ih =>
    obtain ⟨hx, hxs⟩ := List.forall_mem_cons.mp h
    rw [Builder.pushAll, push_packed_of_family vs hx, ok_bind, ih _ hxs, List.append_assoc]
    rfl

/-! ## What builders make -/

/-- **A builder as its operations leave it**: values are pushed boxed, or in the unboxed form of a
family. -/
inductive Builder.Reached : Builder → Prop where
  | new (element : Ty) : Reached (.new element)
  | push {b c : Builder} {v : Value} (hb : b.Reached) (h : b.push v = .ok c) : Reached c
  | pushAs {b c : Builder} {family : Family} {x : Carrier family} (hb : b.Reached)
      (h : b.pushAs family x = .ok c) : Reached c

/-- **An array as the program makes them**: of a list of primitives, or finished by a builder. -/
inductive ArrayOf.Built : ArrayValue → Prop where
  | bools (id : Nat) (items : Array Bool) : Built ⟨id, .bool, .bools items⟩
  | ints (id : Nat) (items : Array Int64) : Built ⟨id, .int, .ints items⟩
  | floats (id : Nat) (items : Array Float) : Built ⟨id, .float, .floats items⟩
  | finish {b : Builder} (hb : b.Reached) (id : Nat) : Built (b.finish id)

namespace Builder

variable {b c : Builder} {vs : List Value}

/-- **A builder holds a list of values**, each of the family of the element type. -/
structure Holds (b : Builder) (vs : List Value) : Prop where
  packed : b = .packed b.element vs
  family : ∀ v ∈ vs, v.family = b.element.family

theorem holds_new (element : Ty) : (new element).Holds [] :=
  ⟨new_eq_packed element, fun _ hv => (nomatch hv)⟩

theorem Holds.category (hb : b.Holds vs) : b.storage.category = b.element.category := by
  rw [hb.packed]
  exact Storage.category_pack _ _

/-- A boxed value that was taken is one more. -/
theorem Holds.push (hb : b.Holds vs) {v : Value} (h : b.push v = .ok c) : c.Holds (vs ++ [v]) := by
  rw [hb.packed, push_packed, Ty.receive] at h
  split at h
  · next hv =>
    cases h
    exact ⟨rfl, List.forall_mem_append.mpr ⟨hb.family, List.forall_mem_singleton.mpr hv⟩⟩
  · cases h

/-- An unboxed value is rejected by storage of any other category than its own. -/
theorem pushAs_of_ne {family : Family} (hc : b.storage.category = b.element.category)
    (hprimitive : family.isPrimitive = true) (hne : b.element.family ≠ family)
    (x : Carrier family) :
    b.pushAs family x = .error (.defect (.elementStorage family.category b.element)) := by
  obtain ⟨element, storage⟩ := b
  cases family with
  | bool =>
    cases storage with
    | bools items => exact absurd (congrArg Ty.family (Ty.eq_bool_of_category hc)) hne
    | _ => rfl
  | int =>
    cases storage with
    | ints items => exact absurd (congrArg Ty.family (Ty.eq_int_of_category hc)) hne
    | _ => rfl
  | float =>
    cases storage with
    | floats items => exact absurd (congrArg Ty.family (Ty.eq_float_of_category hc)) hne
    | _ => rfl
  | function => cases hprimitive
  | reference => cases hprimitive

/-- An unboxed value is taken by the storage of its category only, so it is of the element type. -/
theorem family_of_pushAs {family : Family} {x : Carrier family}
    (hc : b.storage.category = b.element.category) (hfamily : family.isPrimitive = true)
    (h : b.pushAs family x = .ok c) : b.element.family = family := by
  by_contra hne
  rw [pushAs_of_ne hc hfamily hne] at h
  cases h

/-- An unboxed value that was taken is its boxed form taken. -/
theorem Holds.pushAs (hb : b.Holds vs) {family : Family} {x : Carrier family}
    (h : b.pushAs family x = .ok c) : c.Holds (vs ++ [family.box x]) := by
  by_cases hprimitive : family.isPrimitive = true
  · have hfamily := family_of_pushAs hb.category hprimitive h
    rw [pushAs_eq_push hb.category hfamily] at h
    exact hb.push h
  · cases family with
    | function => exact hb.push h
    | reference => exact hb.push h
    | _ => exact absurd rfl hprimitive

/-- **A builder holds what was pushed**, however that was done. -/
theorem Reached.holds (hb : b.Reached) : ∃ vs, b.Holds vs := by
  induction hb with
  | new element => exact ⟨[], holds_new element⟩
  | push _ h ih =>
    obtain ⟨vs, hvs⟩ := ih
    exact ⟨_, hvs.push h⟩
  | pushAs _ h ih =>
    obtain ⟨vs, hvs⟩ := ih
    exact ⟨_, hvs.pushAs h⟩

theorem Holds.values (hb : b.Holds vs) : b.storage.values = vs := by
  rw [hb.packed]
  exact ArrayOf.values_packed 0 hb.family

end Builder

namespace ArrayOf

variable {a : ArrayValue}

/-- The storage of an array is in the category of its element type. -/
theorem Built.category (ha : a.Built) : a.storage.category = a.element.category := by
  cases ha with
  | finish hb id =>
    obtain ⟨vs, hvs⟩ := hb.holds
    exact hvs.category
  | _ => rfl

/-- **The elements of an array are of the family of its element type.** -/
theorem Built.family (ha : a.Built) : ∀ x ∈ a.storage.values, x.family = a.element.family := by
  cases ha with
  | finish hb id =>
    obtain ⟨vs, hvs⟩ := hb.holds
    intro x hx
    exact hvs.family x (hvs.values ▸ hx)
  | _ =>
    intro x hx
    obtain ⟨_, -, rfl⟩ := List.mem_map.mp hx
    rfl

end ArrayOf

end TypedEval
