import TypedEval.Proofs.Value.Enumeration
import TypedEval.Proofs.Value.Packed
import TypedEval.Proofs.View.Chains

/-!
# All ways to the elements of a view

The elements of a view are reached by one-based index, boxed or unboxed; by enumeration, from cell to
cell; and by a copy into an array. The law (`ViewOf.accessors_agree`): on a view in storage, over an
array as the program makes them, all of these give the members of the view. An index is multiplied into
a place, an enumeration adds up to it; neither wraps on the way, so they meet in the same cells.
-/

namespace TypedEval

namespace ViewOf

variable {v : View} {k : Nat} {i : Int64} {x : Value}

/-! ## Getters -/

theorem Readable.of_built (ha : v.array.Built) (hsize : v.array.size < 2 ^ 63) (hv : v.InStorage) :
    v.Readable := ⟨hv, hsize, ha.family⟩

theorem Readable.length_members (hv : v.Readable) : v.members.length = v.length := by
  rw [← v.length_entries, hv.entries, List.length_map]

/-- **An index gives the member in its place.** -/
theorem Readable.get (hv : v.Readable) (hx : v.members[k]? = some x) (hi : i.toInt = k + 1) :
    v.get i = .ok x := get_of_entries hv.entries hv.inStorage hv.size hx hi

/-- A storage in the category of a primitive type has no boxed cells to be of the type. -/
theorem storage_of_primitive {good : Function → Prop} {element : Ty} {s : Storage Value}
    (hc : s.category = element.category) (hprimitive : element.family.isPrimitive = true) :
    s.Of good element := by
  refine ⟨hc, fun x hx => ?_⟩
  cases s with
  | boxed items =>
    cases element with
    | bool | int | float => cases hc
    | _ => cases hprimitive
  | _ => cases hx

/-- **The getter of a primitive type gives the boxed element, unboxed.** -/
theorem getAs_of_get (hc : v.array.storage.category = v.element.category) (family : Family)
    (hfamily : v.element.family = family) (hprimitive : family.isPrimitive = true)
    (hget : v.get i = .ok x) (hx : x.family = v.element.family) :
    ∃ y, v.getAs family i = .ok y ∧ x = family.box y := by
  subst hfamily
  obtain ⟨y, hy, hbox⟩ := Value.unbox_of_family hx
  refine ⟨y, ?_, hbox.symm⟩
  have hstorage : v.array.storage.Of (fun _ => True) v.element := storage_of_primitive hc hprimitive
  rw [getAs_eq_get hstorage rfl, hget, ok_bind, hy]
  rfl

/-- **All getters give one element**: boxed, and where it is of a primitive type, unboxed. -/
structure Gets (v : View) (i : Int64) (x : Value) : Prop where
  value : v.get i = .ok x
  bool : v.element = .bool → ∃ b, x = .bool b ∧ v.getBool i = .ok b
  int : v.element = .int → ∃ n, x = .int n ∧ v.getInt i = .ok n
  float : v.element = .float → ∃ y, x = .float y ∧ v.getFloat i = .ok y

theorem Readable.gets (hv : v.Readable) (hc : v.array.storage.category = v.element.category)
    (hx : v.members[k]? = some x) (hi : i.toInt = k + 1) : v.Gets i x := by
  have hget := hv.get hx hi
  have hfamily := hv.family_of_mem (List.mem_of_getElem? hx)
  refine ⟨hget, fun h => ?_, fun h => ?_, fun h => ?_⟩
  · obtain ⟨y, hy, hbox⟩ := getAs_of_get hc .bool (by rw [h]; rfl) rfl hget hfamily
    exact ⟨y, hbox, hy⟩
  · obtain ⟨y, hy, hbox⟩ := getAs_of_get hc .int (by rw [h]; rfl) rfl hget hfamily
    exact ⟨y, hbox, hy⟩
  · obtain ⟨y, hy, hbox⟩ := getAs_of_get hc .float (by rw [h]; rfl) rfl hget hfamily
    exact ⟨y, hbox, hy⟩

/-- **All getters refuse an index** as one out of bounds. -/
structure Refuses (v : View) (i : Int64) : Prop where
  value : v.get i = .error (.raised (.indexOutOfBounds i v.length))
  bool : v.getBool i = .error (.raised (.indexOutOfBounds i v.length))
  int : v.getInt i = .error (.raised (.indexOutOfBounds i v.length))
  float : v.getFloat i = .error (.raised (.indexOutOfBounds i v.length))

/-- An index is located before the storage is looked at, whatever it holds. -/
theorem refuses_of_outside (v : View) (hi : ¬ (1 ≤ i.toInt ∧ i.toInt ≤ v.length)) :
    v.Refuses i := by
  have hlocate : v.locate i = .error (.raised (.indexOutOfBounds i v.length)) := if_neg hi
  constructor
  · unfold get; rw [hlocate]; rfl
  · unfold getBool; rw [hlocate]; rfl
  · unfold getInt; rw [hlocate]; rfl
  · unfold getFloat; rw [hlocate]; rfl

/-! ## Enumeration -/

/-- A view in storage is walked from cell to cell, and no step wraps. -/
theorem after_cells (hv : v.InStorage) (hsize : v.array.size < 2 ^ 63) (j : Nat) {count : Nat}
    (hcount : k + count = v.length) (hj : j < count) :
    (Elements.cells v.array.storage (v.cell k) v.step count).after j =
      .cells v.array.storage (v.cell (k + j)) v.step (count - j) := by
  induction j generalizing k count with
  | zero => rfl
  | succ j ih =>
    obtain ⟨count, rfl⟩ : ∃ n, count = n + 1 := ⟨count - 1, by omega⟩
    have hstep : (Elements.cells v.array.storage (v.cell k) v.step (count + 1)).next? =
        some (v.array.storage.read (v.cell k),
          .cells v.array.storage (v.cell (k + 1)) v.step count) := by
      simp only [Elements.next?]
      rw [if_neg (by omega), cell_succ hv hsize (by omega)]
    rw [Elements.after_succ hstep, ih (by omega) (by omega)]
    congr 1
    · congr 1
      omega
    · omega

/-- **Every cell of an enumeration is in its place**, as an integer. -/
theorem Readable.elements_after (hv : v.Readable) (hk : k < v.length) :
    ∃ p, v.elements.after k = .cells v.array.storage p v.step (v.length - k) ∧
      (p.toNat : Int) = v.offset.toNat + k * v.step.toInt := by
  refine ⟨v.cell k, ?_, toNat_cell hv.inStorage hv.size hk⟩
  have hafter := after_cells (k := 0) hv.inStorage hv.size k (Nat.zero_add v.length) hk
  rw [cell_zero, Nat.zero_add] at hafter
  exact hafter

theorem Readable.yields (hv : v.Readable) : v.elements.Yields (v.members.map .ok) := by
  rw [← hv.entries, ← toList_elements]
  exact v.elements.yields_toList

/-! ## Copies -/

/-- **A copy is the array of the members.** No push is refused. -/
theorem Readable.copy (hv : v.Readable) (id : Nat) :
    v.copy id = .ok (.packed id v.element v.members) := by
  rw [copy_of_entries hv.entries, Builder.new_eq_packed,
    Builder.pushAll_packed [] fun x hx => hv.family_of_mem hx]
  rfl

theorem isWhole_iff {α : Type} {v : ViewOf α} :
    v.isWhole = true ↔ v.offset = 0 ∧ v.step = 1 ∧ v.length = v.array.size := by
  simp only [isWhole, Bool.and_eq_true, decide_eq_true_eq, and_assoc]

theorem eq_whole_of_isWhole {α : Type} {v : ViewOf α} (h : v.isWhole = true) :
    v = whole v.array := by
  obtain ⟨array, offset, step, length⟩ := v
  obtain ⟨rfl, rfl, hlength⟩ := isWhole_iff.mp h
  exact congrArg (ViewOf.mk array 0 1) hlength

theorem values_of_isWhole (h : v.isWhole = true) : v.array.storage.values = v.members := by
  rw [← members_whole, ← eq_whole_of_isWhole h]

/-- **The array of a view** holds its members. It is the viewed array if the view is all of it, and
under a new number else. -/
theorem Readable.viewToArray (hv : v.Readable) (call : Function → List Value → Run Store Value)
    (s : Store) :
    ∃ a t, (Builtin.viewToArray v).run call s = (.ok a, t) ∧ a.element = v.element ∧
      a.storage.values = v.members ∧ a.id = if v.isWhole then v.array.id else s.storages := by
  unfold Builtin.viewToArray
  split
  · next hwhole =>
    exact ⟨_, _, rfl, rfl, values_of_isWhole hwhole, rfl⟩
  · next hpart =>
    have hrun : (Script.newStorage fun id => Script.check (v.copy id)).run call s =
        (.ok (.packed s.storages v.element v.members), { s with storages := s.storages + 1 }) := by
      simp only [hv.copy]
      rfl
    exact ⟨_, _, hrun, rfl, ArrayOf.values_packed _ fun x hx => hv.family_of_mem hx, rfl⟩

end ViewOf

/-! ## Agreement -/

/-- **All ways to the elements of a view agree.** Let a view be in storage, over an array as the
program makes them and memory can hold. Then there is one list of values, as long as the view. The
enumeration yields it, each cell in its place and the number of those to come exact. Every index of the
view gives the value at it, by the boxed getter and by that of a primitive element type; every other
index is refused by all getters alike. The array of the view is of its element type and holds the list;
it shares the storage of the viewed array exactly if the view is all of it. And an array is enumerated
as the view of all of it. -/
theorem ViewOf.accessors_agree (v : View) (ha : v.array.Built) (hsize : v.array.size < 2 ^ 63)
    (hv : v.InStorage) :
    ∃ xs : List Value, xs.length = v.length ∧
      v.elements.Yields (xs.map .ok) ∧
      (∀ k : Nat, k < v.length → ∃ p,
        v.elements.after k = .cells v.array.storage p v.step (v.length - k) ∧
          (p.toNat : Int) = v.offset.toNat + k * v.step.toInt) ∧
      (∀ (k : Nat) (x : Value), xs[k]? = some x → ∀ i : Int64, i.toInt = k + 1 → v.Gets i x) ∧
      (∀ i : Int64, ¬ (1 ≤ i.toInt ∧ i.toInt ≤ v.length) → v.Refuses i) ∧
      (∀ (call : Function → List Value → Run Store Value) (s : Store), v.array.id < s.storages →
        ∃ a t, (Builtin.viewToArray v).run call s = (.ok a, t) ∧ a.element = v.element ∧
          a.storage.values = xs ∧
          (a.sharesStorage v.array = true ↔
            v.offset = 0 ∧ v.step = 1 ∧ v.length = v.array.size)) ∧
      (Value.array v.array).elements = (Value.slice (.whole v.array)).elements := by
  have readable := Readable.of_built ha hsize hv
  refine ⟨v.members, readable.length_members, readable.yields,
    fun k hk => readable.elements_after hk,
    fun k x hx i hi => readable.gets ha.category hx hi,
    fun i hi => v.refuses_of_outside hi, fun call s hnumbered => ?_, rfl⟩
  obtain ⟨a, t, hrun, helement, hvalues, hid⟩ := readable.viewToArray call s
  refine ⟨a, t, hrun, helement, hvalues, ?_⟩
  rw [← isWhole_iff, ArrayOf.sharesStorage, decide_eq_true_eq, hid]
  split
  · next hwhole => exact iff_of_true rfl hwhole
  · next hpart => exact iff_of_false (by omega) hpart

/-- Every other element of five, backward: read, enumerated and copied. -/
theorem alternate_accessors_agree :
    Alternate.view.array.Built ∧ Alternate.view.array.size < 2 ^ 63 ∧ Alternate.view.InStorage ∧
      ∃ xs : List Value, xs.length = 3 ∧ Alternate.view.elements.Yields (xs.map .ok) ∧
        (∀ (k : Nat) (x : Value), xs[k]? = some x →
          ∀ i : Int64, i.toInt = k + 1 → Alternate.view.Gets i x) ∧
        Alternate.view.Refuses 4 ∧
        ∀ call, ∃ a t, (Builtin.viewToArray Alternate.view).run call ⟨#[], 1⟩ = (.ok a, t) ∧
          a.storage.values = xs ∧ a.sharesStorage Alternate.view.array = false := by
  have built : Alternate.view.array.Built := .ints 0 _
  have small : Alternate.view.array.size < 2 ^ 63 := by decide
  obtain ⟨xs, hlength, hyields, -, hgets, hrefuses, harray, -⟩ :=
    ViewOf.accessors_agree Alternate.view built small Alternate.view_inStorage
  refine ⟨built, small, Alternate.view_inStorage, xs, hlength, hyields, hgets,
    hrefuses 4 (by decide), fun call => ?_⟩
  obtain ⟨a, t, hrun, -, hvalues, hshares⟩ := harray call ⟨#[], 1⟩ (by decide)
  refine ⟨a, t, hrun, hvalues, Bool.eq_false_iff.mpr fun h => ?_⟩
  exact absurd (hshares.mp h) (by decide)

end TypedEval
