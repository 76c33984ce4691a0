import Mathlib.Data.List.Induction
import TypedEval.Proofs.View.Access
import TypedEval.Run

/-!
# Builders after any pushes

A builder takes boxed values of the family of its element type, and unboxed primitives where the
element type is that primitive. Whatever is pushed to a fresh builder, in whatever order, it is packed
with the values that were accepted (`Push.after_eq_packed`): a push that fits adds its value to the
end, and any other is rejected and changes nothing (`Push.run_packed`). Functions and references share
a storage, so it is the family of a value and not the category of its cell that decides.

The finished array lists these values. A typed read of it finds storage of its own category, so it is
the boxed read, unboxed (`ArrayOf.Built.readsUnboxed`).
-/

namespace TypedEval

/-! ## Pushes -/

/-- **A push**: of a boxed value, or of a primitive as it is. -/
inductive Push where
  | boxed (v : Value)
  | bool (b : Bool)
  | int (n : Int64)
  | float (x : Float)

namespace Push

/-- The value that is pushed. -/
def value : Push → Value
  | .boxed v => v
  | .bool b => .bool b
  | .int n => .int n
  | .float x => .float x

/-- What a push makes of a builder. -/
def onto (b : Builder) : Push → Except Fault Builder
  | .boxed v => b.push v
  | .bool x => b.pushBool x
  | .int n => b.pushInt n
  | .float x => b.pushFloat x

/-- **A push fits an element type**: a boxed value by its family, a primitive if it is the type. -/
def Fits (element : Ty) : Push → Prop
  | .boxed v => v.family = element.family
  | .bool _ => element = .bool
  | .int _ => element = .int
  | .float _ => element = .float

instance (element : Ty) : DecidablePred (Fits element)
  | .boxed v => inferInstanceAs (Decidable (v.family = element.family))
  | .bool _ => inferInstanceAs (Decidable (element = .bool))
  | .int _ => inferInstanceAs (Decidable (element = .int))
  | .float _ => inferInstanceAs (Decidable (element = .float))

/-- Why a push that does not fit is rejected. -/
def rejection (element : Ty) : Push → Fault
  | .boxed _ => .assertion .elementFamily
  | .bool _ => .defect (.elementStorage .bool element)
  | .int _ => .defect (.elementStorage .int element)
  | .float _ => .defect (.elementStorage .float element)

/-- Does a push, unless it is rejected. -/
def run (p : Push) : Run Builder Unit := Run.update fun b => p.onto b

/-- **The builder after pushes**, those that were rejected among them. -/
def after (element : Ty) (ps : List Push) : Builder :=
  ps.foldl (fun b p => (p.run b).2) (.new element)

/-- **The values that pushes add** to a builder of an element type, in order. -/
def accepted (element : Ty) (ps : List Push) : List Value :=
  (ps.filter fun p => p.Fits element).map value

variable {element : Ty} {p : Push}

/-- A primitive fits as its boxed form does. -/
theorem fits_iff : p.Fits element ↔ p.value.family = element.family := by
  cases p with
  | boxed v => exact Iff.rfl
  | bool b => exact ⟨fun h => congrArg Ty.family h.symm, fun h => Ty.eq_bool_of_family h.symm⟩
  | int n => exact ⟨fun h => congrArg Ty.family h.symm, fun h => Ty.eq_int_of_family h.symm⟩
  | float x => exact ⟨fun h => congrArg Ty.family h.symm, fun h => Ty.eq_float_of_family h.symm⟩

theorem accepted_cons (element : Ty) (p : Push) (ps : List Push) :
    accepted element (p :: ps) =
      if p.Fits element then p.value :: accepted element ps else accepted element ps := by
  simp only [accepted, List.filter_cons, decide_eq_true_eq]
  split <;> rfl

theorem family_of_mem_accepted {ps : List Push} {v : Value} (hv : v ∈ accepted element ps) :
    v.family = element.family := by
  obtain ⟨p, hp, rfl⟩ := List.mem_map.mp hv
  exact fits_iff.mp (of_decide_eq_true (List.mem_filter.mp hp).2)

/-- **A push adds its value or is rejected.** Which of the two, the element type decides alone. -/
theorem onto_packed (element : Ty) (vs : List Value) (p : Push) :
    p.onto (.packed element vs) =
      if p.Fits element then .ok (.packed element (vs ++ [p.value]))
      else .error (p.rejection element) := by
  have hc : (Builder.packed element vs).storage.category = element.category :=
    Storage.category_pack _ _
  by_cases hp : p.Fits element
  -- What fits is pushed as its boxed form is, whichever form it comes in.
  · have hfamily := fits_iff.mp hp
    have hboxed := Builder.push_packed_of_family vs hfamily
    rw [if_pos hp, ← hboxed]
    cases p with
    | boxed v => rfl
    | bool x => exact Builder.pushAs_eq_push hc (show element.family = .bool from hfamily.symm) x
    | int n => exact Builder.pushAs_eq_push hc (show element.family = .int from hfamily.symm) n
    | float x => exact Builder.pushAs_eq_push hc (show element.family = .float from hfamily.symm) x
  · have hne : element.family ≠ p.value.family := fun h => hp (fits_iff.mpr h.symm)
    rw [if_neg hp]
    cases p with
    | boxed v => exact if_neg hp
    | bool x => exact Builder.pushAs_of_ne hc rfl (show element.family ≠ .bool from hne) x
    | int n => exact Builder.pushAs_of_ne hc rfl (show element.family ≠ .int from hne) n
    | float x => exact Builder.pushAs_of_ne hc rfl (show element.family ≠ .float from hne) x

/-- **One push** of a packed builder. -/
theorem run_packed (element : Ty) (vs : List Value) (p : Push) :
    p.run (.packed element vs) =
      if p.Fits element then (.ok (), .packed element (vs ++ [p.value]))
      else (.error (.fault (p.rejection element) []), .packed element vs) := by
  simp only [run, Run.update, onto_packed]
  by_cases hp : p.Fits element
  · simp only [if_pos hp]
  · simp only [if_neg hp]

/-- **Any pushes** leave a builder packed with the accepted values. -/
theorem after_eq_packed (element : Ty) (ps : List Push) :
    after element ps = .packed element (accepted element ps) := by
  -- Over any values before these, since the builder is no longer fresh after one push.
  suffices h : ∀ vs, ps.foldl (fun b p => (p.run b).2) (.packed element vs) =
      .packed element (vs ++ accepted element ps) by
    rw [after, Builder.new_eq_packed]
    exact h []
  induction ps with
  | nil =>
    intro vs
    rw [accepted, List.filter_nil, List.map_nil, List.append_nil]
    rfl
  | cons p ps ih =>
    intro vs
    rw [List.foldl_cons, run_packed, accepted_cons]
    split
    · rw [ih, List.append_assoc]
      rfl
    · exact ih vs

/-- **What a push does to a builder**: it is accepted just if it fits; otherwise it is rejected for its
reason and the builder is as it was. It leaves the builder that the boxed push of its value leaves. -/
structure Effect (b : Builder) (p : Push) : Prop where
  accepted : (p.run b).1 = .ok () ↔ p.Fits b.element
  rejected : ¬ p.Fits b.element → p.run b = (.error (.fault (p.rejection b.element) []), b)
  boxed : (p.run b).2 = ((Push.boxed p.value).run b).2

theorem effect_packed (element : Ty) (vs : List Value) (p : Push) :
    p.Effect (.packed element vs) := by
  have hboxed := run_packed element vs (.boxed p.value)
  by_cases hp : p.Fits element
  · have hrun := (run_packed element vs p).trans (if_pos hp)
    have hsame := hboxed.trans (if_pos (fits_iff.mp hp))
    exact ⟨iff_of_true (congrArg Prod.fst hrun) hp, fun h => absurd hp h,
      (congrArg Prod.snd hrun).trans (congrArg Prod.snd hsame).symm⟩
  · have hrun := (run_packed element vs p).trans (if_neg hp)
    have hsame := hboxed.trans (if_neg fun h => hp (fits_iff.mpr h))
    refine ⟨iff_of_false (fun h => ?_) hp, fun _ => hrun,
      (congrArg Prod.snd hrun).trans (congrArg Prod.snd hsame).symm⟩
    cases (congrArg Prod.fst hrun).symm.trans h

end Push

/-! ## What a builder stores -/

/-- **A builder of an element type stores values**: in the category of the type, each of its family. -/
structure Builder.Stores (b : Builder) (ty : Ty) (xs : List Value) : Prop where
  element : b.element = ty
  category : b.storage.category = ty.category
  family : ∀ x ∈ b.storage.values, x.family = ty.family
  values : b.storage.values = xs
  size : b.size = xs.length

/-- **An array of an element type lists values**: a builder made it, its length is theirs, and where
memory can hold it, it enumerates them. -/
structure ArrayOf.Lists (a : ArrayValue) (ty : Ty) (xs : List Value) : Prop where
  built : a.Built
  element : a.element = ty
  size : a.size = xs.length
  yields : xs.length < 2 ^ 63 → (ViewOf.whole a).elements.Yields (xs.map .ok)

namespace Builder

variable {b : Builder} {element : Ty} {xs : List Value}

theorem holds_packed (h : ∀ x ∈ xs, x.family = element.family) :
    (Builder.packed element xs).Holds xs := ⟨rfl, h⟩

/-- A packed builder comes from pushes of its values. -/
theorem reached_packed (h : ∀ x ∈ xs, x.family = element.family) :
    (Builder.packed element xs).Reached := by
  induction xs using List.reverseRecOn with
  | nil => exact new_eq_packed element ▸ .new element
  | append_singleton xs x ih =>
    obtain ⟨hxs, hx⟩ := List.forall_mem_append.mp h
    exact .push (ih hxs) (push_packed_of_family xs (hx x (List.mem_singleton_self x)))

theorem Holds.stores (hb : b.Holds xs) : b.Stores b.element xs := by
  refine ⟨rfl, hb.category, fun x hx => hb.family x (hb.values ▸ hx), hb.values, ?_⟩
  rw [size, ← Storage.length_values, hb.values]

/-- **The finished array lists what the builder held.** -/
theorem Holds.lists (hb : b.Holds xs) (id : Nat) : (b.finish id).Lists b.element xs := by
  have reached : b.Reached := hb.packed ▸ reached_packed hb.family
  have hvalues : (b.finish id).storage.values = xs := hb.values
  have hsize : (b.finish id).size = xs.length := hb.stores.size
  refine ⟨.finish reached id, rfl, hsize, fun hlength => ?_⟩
  have readable : (ViewOf.whole (b.finish id)).Readable :=
    ⟨ViewOf.inStorage_whole _, hsize ▸ hlength, hb.stores.family⟩
  have hyields := readable.yields
  rw [ViewOf.members_whole, hvalues] at hyields
  exact hyields

/-- What can be reserved is fewer cells than a signed word counts. -/
theorem lt_of_withCapacity [Allocator] {count : Nat} (h : withCapacity element count = .ok b) :
    count < 2 ^ 63 := by
  obtain ⟨_, hreserve, -⟩ := bind_eq_ok.mp h
  -- A cell has at least one byte, so there are no more cells than bytes.
  have hcell : 1 ≤ element.category.cellBytes := by
    cases element.category <;> decide
  have hbytes : count * 1 ≤ count * element.category.cellBytes := Nat.mul_le_mul_left count hcell
  unfold reserve collectionLimit at hreserve
  simp only at hreserve
  split at hreserve
  · cases hreserve
  · omega

end Builder

/-! ## Typed reads -/

/-- An index is located without looking at the storage. -/
theorem ViewOf.locate_ne_defect {α : Type} (v : ViewOf α) (i : Int64) (d : Defect) :
    v.locate i ≠ .error (.defect d) := by
  intro h
  unfold locate position at h
  simp only at h
  split at h
  · split at h <;> cases h
  · cases h

/-- **A typed read beside the boxed one**: it gives the element unboxed or fails as the boxed read
does, and meets no storage of another category. -/
structure Unboxes {α : Type} (box : α → Value) (typed : Except Fault α)
    (boxed : Except Fault Value) : Prop where
  boxed : typed.map box = boxed
  noDefect : ∀ d, typed ≠ .error (.defect d)

namespace Unboxes

variable {α : Type} {box : α → Value}

/-- A cell read in both forms. -/
theorem read (box : α → Value) (x : α) : Unboxes box (.ok x) (.ok (box x)) :=
  ⟨rfl, fun _ h => (nomatch h)⟩

/-- No cell is there to be read. -/
theorem outside (s : Storage Value) (position : UInt64) :
    Unboxes box (.error (s.outside position)) (.error (s.outside position)) :=
  ⟨rfl, fun _ h => (nomatch h)⟩

/-- Both reads of the cell that an index locates. -/
theorem locate {v : View} {typed : UInt64 → Except Fault α} {boxed : UInt64 → Except Fault Value}
    (h : ∀ p, Unboxes box (typed p) (boxed p)) (i : Int64) :
    Unboxes box (v.locate i >>= typed) (v.locate i >>= boxed) := by
  cases hlocate : v.locate i with
  | error e =>
    refine ⟨rfl, fun d hd => v.locate_ne_defect i d ?_⟩
    cases hd
    exact hlocate
  | ok p => exact h p

end Unboxes

namespace ArrayOf

variable {a : ArrayValue}

theorem readBool_unboxes (hc : a.storage.category = .bool) (p : UInt64) :
    Unboxes .bool (a.readBool p) (a.storage.read p) := by
  obtain ⟨id, element, storage⟩ := a
  cases storage with
  | bools items =>
    simp only [readBool, Storage.read]
    cases items[p.toNat]? with
    | none => exact .outside _ p
    | some x => exact .read _ x
  | _ => cases hc

theorem readInt_unboxes (hc : a.storage.category = .int) (p : UInt64) :
    Unboxes .int (a.readInt p) (a.storage.read p) := by
  obtain ⟨id, element, storage⟩ := a
  cases storage with
  | ints items =>
    simp only [readInt, Storage.read]
    cases items[p.toNat]? with
    | none => exact .outside _ p
    | some x => exact .read _ x
  | _ => cases hc

theorem readFloat_unboxes (hc : a.storage.category = .float) (p : UInt64) :
    Unboxes .float (a.readFloat p) (a.storage.read p) := by
  obtain ⟨id, element, storage⟩ := a
  cases storage with
  | floats items =>
    simp only [readFloat, Storage.read]
    cases items[p.toNat]? with
    | none => exact .outside _ p
    | some x => exact .read _ x
  | _ => cases hc

/-- **The typed reads of an array**, each where the element type is that primitive: at every position
of its storage, and at every index of every view of it. -/
structure ReadsUnboxed (a : ArrayValue) : Prop where
  bool : a.element = .bool → ∀ p, Unboxes .bool (a.readBool p) (a.storage.read p)
  int : a.element = .int → ∀ p, Unboxes .int (a.readInt p) (a.storage.read p)
  float : a.element = .float → ∀ p, Unboxes .float (a.readFloat p) (a.storage.read p)
  getBool : a.element = .bool → ∀ v : View, v.array = a →
    ∀ i, Unboxes .bool (v.getBool i) (v.get i)
  getInt : a.element = .int → ∀ v : View, v.array = a →
    ∀ i, Unboxes .int (v.getInt i) (v.get i)
  getFloat : a.element = .float → ∀ v : View, v.array = a →
    ∀ i, Unboxes .float (v.getFloat i) (v.get i)

/-- **An array as the program makes them reads unboxed** what it reads boxed. -/
theorem Built.readsUnboxed (ha : a.Built) : a.ReadsUnboxed := by
  have category {element : Ty} (h : a.element = element) :
      a.storage.category = element.category := h ▸ ha.category
  have bool (h : a.element = .bool) := readBool_unboxes (category h)
  have int (h : a.element = .int) := readInt_unboxes (category h)
  have float (h : a.element = .float) := readFloat_unboxes (category h)
  refine ⟨bool, int, float, fun h v hv i => ?_, fun h v hv i => ?_, fun h v hv i => ?_⟩
  · subst hv
    exact .locate (bool h) i
  · subst hv
    exact .locate (int h) i
  · subst hv
    exact .locate (float h) i

end ArrayOf

/-! ## Building and reading back -/

/-- **After any pushes to a fresh builder**, rejected ones among them, it stores the accepted values,
every further push has its effect, and the finished array lists them. Every array as the program makes
them reads unboxed what it reads boxed. Values of the family of the element type, pushed one after the
other where storage was reserved, in a list or out of an enumeration, make an array that lists them. -/
theorem Push.after_builds [Allocator] (element : Ty) (ps : List Push) :
    (after element ps).Stores element (accepted element ps) ∧
    (∀ p : Push, p.Effect (after element ps)) ∧
    (∀ id, ((after element ps).finish id).Lists element (accepted element ps)) ∧
    (∀ a : ArrayValue, a.Built → a.ReadsUnboxed) ∧
    ∀ (count : Nat) (items : List Value) (b : Builder), Builder.withCapacity element count = .ok b →
      (∀ x ∈ items, x.family = element.family) →
      ∃ c, b.pushAll items = .ok c ∧
        (∀ it : Elements, it.toList = items.map .ok → it.fill it.remaining b = .ok c) ∧
        ∀ id, (c.finish id).Lists element items ∧
          (items.length ≤ count → (ViewOf.whole (c.finish id)).elements.Yields (items.map .ok)) := by
  have holds : (Builder.packed element (accepted element ps)).Holds (accepted element ps) :=
    Builder.holds_packed fun v hv => family_of_mem_accepted hv
  rw [after_eq_packed]
  refine ⟨holds.stores, effect_packed element _, holds.lists, fun a ha => ha.readsUnboxed,
    fun count items b hb hitems => ?_⟩
  have hpushed : b.pushAll items = .ok (.packed element items) := by
    rw [Builder.withCapacity_eq_ok hb, Builder.new_eq_packed, Builder.pushAll_packed [] hitems]
    rfl
  have lists (id : Nat) := (Builder.holds_packed hitems).lists id
  refine ⟨_, hpushed, fun it hit => ?_, fun id => ⟨lists id, fun hcount => ?_⟩⟩
  · rw [Elements.fill_eq_pushAll it.remaining hit]
    exact hpushed
  · exact (lists id).yields (Nat.lt_of_le_of_lt hcount (Builder.lt_of_withCapacity hb))

namespace Routines

def element : Ty := .function [.int] .int

/-- A function of the element type, and one of another type but of its family. -/
def first : Function := .plain ⟨0, some "f", ⟨[.int], .int⟩, none⟩

def second : Function := .plain ⟨1, some "g", ⟨[], .bool⟩, none⟩

/-- An array, which is stored as a function is and belongs to another family. -/
def numbers : ArrayValue := ⟨0, .int, .ints #[1, 2]⟩

def pushes : List Push :=
  [.boxed (.function first), .bool true, .boxed (.array numbers), .boxed (.function second)]

def values : List Value := [.function first, .function second]

end Routines

/-- Two functions of four pushes are kept. An array is rejected again afterwards, an array of integers
is read unboxed, and the functions that were kept are collected into another array. -/
theorem routines_built :
    Push.accepted Routines.element Routines.pushes = Routines.values ∧
    (ViewOf.whole ((Push.after Routines.element Routines.pushes).finish 1)).elements.Yields
      (Routines.values.map .ok) ∧
    (Push.boxed (.array Routines.numbers)).run (Push.after Routines.element Routines.pushes) =
      (.error (.fault (.assertion .elementFamily) []), Push.after Routines.element Routines.pushes) ∧
    (∀ p, Unboxes .int (Routines.numbers.readInt p) (Routines.numbers.storage.read p)) ∧
    Builder.withCapacity Routines.element 2 = .ok (.new Routines.element) ∧
    ∃ c, (Builder.new Routines.element).pushAll Routines.values = .ok c ∧
      (ViewOf.whole (c.finish 2)).elements.Yields (Routines.values.map .ok) := by
  have kept : Push.accepted Routines.element Routines.pushes = Routines.values := rfl
  have reserved : Builder.withCapacity Routines.element 2 = .ok (.new Routines.element) := rfl
  have functions : ∀ x ∈ Routines.values, x.family = Routines.element.family :=
    List.forall_mem_cons.mpr ⟨rfl, List.forall_mem_singleton.mpr rfl⟩
  obtain ⟨stores, effect, lists, reads, collects⟩ :=
    Push.after_builds Routines.element Routines.pushes
  rw [kept] at lists
  obtain ⟨c, hpushed, -, hlists⟩ := collects 2 Routines.values _ reserved functions
  have misfit : ¬ (Push.boxed (.array Routines.numbers)).Fits
      (Push.after Routines.element Routines.pushes).element := by
    rw [stores.element]
    decide
  exact ⟨kept, (lists 1).yields (by decide), (effect _).rejected misfit,
    (reads Routines.numbers (.ints 0 _)).int rfl, reserved, c, hpushed, (hlists 2).2 (by decide)⟩

end TypedEval
