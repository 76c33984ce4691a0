import TypedEval.Proofs.View.Access

/-!
# Equality is an equivalence

Values are compared by contents: arrays and slices by element type, length and elements, functions by
instance, ranges by their parts. Floats are the one thing that need not equal itself, so the laws are
about values without them, at any depth, whose views are in storage (`Value.Comparable`). On these,
equality always has an answer and is an equivalence (`Value.equal_equivalence`). It does not tell an
array from a view of the same elements, so it does not tell a sequence from its array or from the slice
of all of it.

The inductions are on what makes a value comparable. One lemma for each kind of value says what equals
it (`equals_bool` to `equals_view`), and nothing after them opens the comparison again.
-/

namespace TypedEval

/-- **Two values are equal.** -/
def Value.Equals (v w : Value) : Prop := v.equal w = .ok true

/-- **A value that can be compared**: it has no floats at any depth, and its views are in storage. -/
inductive Value.Comparable : Value → Prop where
  | bool (b : Bool) : Comparable (.bool b)
  | int (n : Int64) : Comparable (.int n)
  | function (f : Function) : Comparable (.function f)
  | range (r : IntRange) : Comparable (.range (.int r))
  /-- An array, as the view of all of it, or a slice. -/
  | sequence {v : Value} {p : View} (view : v.expectView = .ok p) (readable : p.Readable)
      (elements : ∀ x ∈ p.members, Comparable x) : Comparable v

/-! ## Lists of elements -/

/-- Elements are paired by their index. -/
def PairwiseEqual (xs ys : List Value) : Prop :=
  ∀ (k : Nat) (x y : Value), xs[k]? = some x → ys[k]? = some y → x.Equals y

theorem PairwiseEqual.refl {xs : List Value} (h : ∀ x ∈ xs, x.Equals x) : PairwiseEqual xs xs := by
  intro k x y hx hy
  rw [hx] at hy
  cases hy
  exact h x (List.mem_of_getElem? hx)

theorem equalAll_eq_true {xs ys : List Value} (h : xs.length = ys.length) :
    equalAll xs ys = .ok true ↔ PairwiseEqual xs ys := by
  induction xs generalizing ys with
  | nil =>
    cases ys with
    | nil => exact iff_of_true rfl fun _ _ _ hx => (nomatch hx)
    | cons y ys => cases h
  | cons x xs ih =>
    cases ys with
    | nil => cases h
    | cons y ys =>
      have ih := ih (Nat.succ.inj h)
      constructor
      · intro hall
        obtain ⟨answer, hxy, hrest⟩ := bind_eq_ok.mp hall
        cases answer with
        | false => cases hrest
        | true =>
          intro k x' y' hx hy
          cases k with
          | zero => cases hx; cases hy; exact hxy
          | succ k => exact ih.mp hrest k x' y' hx hy
      · intro hall
        have hxy : x.equal y = .ok true := hall 0 x y rfl rfl
        simp only [equalAll, hxy, ok_bind, if_true]
        exact ih.mpr fun k x' y' hx hy => hall (k + 1) x' y' hx hy

theorem equalAll_total {xs ys : List Value}
    (h : ∀ x ∈ xs, ∀ y ∈ ys, ∃ b, x.equal y = .ok b) : ∃ b, equalAll xs ys = .ok b := by
  induction xs generalizing ys with
  | nil => exact ⟨true, by cases ys <;> rfl⟩
  | cons x xs ih =>
    cases ys with
    | nil => exact ⟨true, rfl⟩
    | cons y ys =>
      obtain ⟨answer, hxy⟩ := h x List.mem_cons_self y List.mem_cons_self
      simp only [equalAll, hxy, ok_bind]
      cases answer with
      | false => exact ⟨false, rfl⟩
      | true =>
        exact ih fun x' hx y' hy => h x' (List.mem_cons_of_mem x hx) y' (List.mem_cons_of_mem y hy)

/-! ## Views -/

namespace ViewOf

variable {p q : View}

/-- Views are equal when they have one element type, one length and equal members. -/
theorem Readable.equals_iff (hp : p.Readable) (hq : q.Readable) :
    (Value.slice p).Equals (.slice q) ↔
      p.element = q.element ∧ p.length = q.length ∧ PairwiseEqual p.members q.members := by
  unfold Value.Equals
  rw [equal_of_entries hp.entries hq.entries]
  split
  · next hsame =>
    rw [equalAll_eq_true (by rw [hp.length_members, hq.length_members, hsame.2])]
    exact ⟨fun h => ⟨hsame.1, hsame.2, h⟩, fun h => h.2.2⟩
  · next hdiffer => exact iff_of_false nofun fun h => hdiffer ⟨h.1, h.2.1⟩

/-- A view of more cells than an array has does not move: all its members are one. -/
theorem Readable.still (hp : p.Readable) (hlong : 2 ^ 63 ≤ p.length) {j k : Nat}
    (hj : j < p.length) (hk : k < p.length) : p.members[j]? = p.members[k]? := by
  have hstep : p.step = 0 := by
    apply Classical.byContradiction
    intro hmoves
    have hlength := length_le_size hp.inStorage hmoves
    have hsize := hp.size
    omega
  have hcell : p.cell j = p.cell k := by
    simp [cell, place, hstep]
  have entry (m : Nat) (hm : m < p.length) :
      p.members[m]?.map Except.ok = some (p.array.storage.read (p.cell m)) := by
    rw [← List.getElem?_map, ← hp.entries, entries_eq hp.inStorage hp.size, List.getElem?_map,
      List.getElem?_range hm]
    rfl
  apply Option.map_injective fun x y h => Except.ok.inj h
  rw [entry j hj, entry k hk, hcell]

/-- **Members are paired as indices read them.** -/
theorem Readable.pairwise_iff_get (hp : p.Readable) (hq : q.Readable) (hlength : p.length = q.length) :
    PairwiseEqual p.members q.members ↔
      ∀ i : Int64, 1 ≤ i.toInt → i.toInt ≤ p.length →
        ∃ x y, p.get i = .ok x ∧ q.get i = .ok y ∧ x.Equals y := by
  have member {r : View} (hr : r.Readable) {k : Nat} (hk : k < r.length) :
      ∃ x, r.members[k]? = some x :=
    ⟨_, List.getElem?_eq_getElem (hr.length_members.symm ▸ hk)⟩
  constructor
  · intro h i hlow hhigh
    have hk : i.toInt.toNat - 1 < p.length := by omega
    obtain ⟨x, hx⟩ := member hp hk
    obtain ⟨y, hy⟩ := member hq (hlength ▸ hk)
    exact ⟨x, y, hp.get hx (by omega), hq.get hy (by omega), h _ x y hx hy⟩
  · intro h k x y hx hy
    have hk : k < p.length := hp.length_members ▸ (List.getElem?_eq_some_iff.mp hx).1
    -- An index that reads what stands at `k`: beyond the words, any one does.
    obtain ⟨j, hword, hj, hxj, hyj⟩ : ∃ j, j + 1 < 2 ^ 63 ∧ j < p.length ∧
        p.members[j]? = some x ∧ q.members[j]? = some y := by
      by_cases hword : k + 1 < 2 ^ 63
      · exact ⟨k, hword, hk, hx, hy⟩
      · refine ⟨0, by decide, by omega, ?_, ?_⟩
        · rw [hp.still (by omega) (show 0 < p.length by omega) hk, hx]
        · rw [hq.still (by omega) (show 0 < q.length by omega) (hlength ▸ hk), hy]
    have hi : (Int64.ofInt (j + 1)).toInt = j + 1 := Int64.toInt_ofInt_of_le (by omega) (by omega)
    obtain ⟨x', y', hx', hy', hequal⟩ := h (Int64.ofInt (j + 1)) (by omega) (by omega)
    rw [hp.get hxj hi] at hx'
    rw [hq.get hyj hi] at hy'
    cases hx'
    cases hy'
    exact hequal

/-! The slice of all of a view, and the array of it. -/

theorem position_zero (p : View) : p.position 0 = .ok p.offset := by
  have hfits : fitsWord p.offset.toInt64.toInt = true :=
    fitsWord_eq_true.mpr ⟨p.offset.toInt64.le_toInt, p.offset.toInt64.toInt_lt⟩
  simp only [position, Int.natCast_zero, Int.zero_mul, Int.add_zero, hfits,
    show fitsWord 0 = true from rfl, Bool.and_self, if_true, Int64.ofInt_toInt,
    UInt64.toUInt64_toInt64]

/-- **The slice without bounds, step by step forward, is the view itself.** -/
theorem slice_forward (p : View) : p.slice (.forward none none) = .ok p := by
  have hfirst : firstBound (.forward none none) p.length = .ok 1 := rfl
  have hlast : lastBound (.forward none none) p.length 1 = .ok p.length := rfl
  have hcount : selected 1 p.length (IntRange.forward none none).step.toInt = p.length := by
    rw [selected_eq (by decide)]
    have hspan : span 1 p.length (IntRange.forward none none).step.toInt = p.length - 1 := rfl
    have hstep : (IntRange.forward none none).step.toInt.natAbs = 1 := rfl
    rw [hspan, hstep, Nat.div_one]
    split <;> omega
  by_cases hempty : p.length = 0
  · rw [slice_of_selected_zero hfirst hlast (by rw [hcount, hempty]), ← hempty]
  · have hstep : (IntRange.forward none none).step.toInt * p.step.toInt = p.step.toInt :=
      Int.one_mul p.step.toInt
    rw [slice_of_selected_pos hfirst hlast (by rw [hcount]; exact hempty) p.position_zero, hcount]
    rw [hstep, Int64.ofInt_toInt]
    split
    · rfl
    · exact ⟨fitsWord_eq_true.mpr ⟨p.step.le_toInt, p.step.toInt_lt⟩, rfl⟩

theorem walk_one (count : Nat) (next : UInt64) :
    walk 1 count next = (List.range count).map fun k => next + UInt64.ofNat k := by
  induction count generalizing next with
  | zero => rfl
  | succ count ih =>
    rw [walk, ih, List.range_succ_eq_map, List.map_cons, List.map_map]
    congr 1
    · exact (UInt64.add_zero next).symm
    · apply List.map_congr_left
      intro k _
      show next + 1 + UInt64.ofNat k = next + UInt64.ofNat (k + 1)
      rw [UInt64.ofNat_add, UInt64.add_assoc, UInt64.add_comm 1]
      rfl

/-- **The array of a view's members shows the members.** Where it is longer than there are positions
they are read over and over; but then the members are all one. -/
theorem Readable.entries_of_values (hp : p.Readable) {a : ArrayValue}
    (hvalues : a.storage.values = p.members) : (whole a).entries = p.members.map .ok := by
  have hsize : a.size = p.length := by
    rw [← hp.length_members, ← hvalues, Storage.length_values]
    rfl
  have hentries : (whole a).entries =
      (List.range p.length).map fun k => a.storage.read (UInt64.ofNat k) := by
    show (walk 1 a.size 0).map a.storage.read = _
    rw [walk_one, List.map_map, hsize]
    apply List.map_congr_left
    intro k _
    exact congrArg a.storage.read (UInt64.zero_add _)
  rw [hentries]
  apply List.ext_getElem (by rw [List.length_map, List.length_range, List.length_map,
    hp.length_members])
  intro k hk hk'
  rw [List.length_map] at hk'
  rw [List.getElem_map, List.getElem_map, List.getElem_range]
  apply Storage.read_of_value
  rw [hvalues, ← List.getElem?_eq_getElem hk', UInt64.toNat_ofNat']
  rw [hp.length_members] at hk'
  by_cases hposition : k < 2 ^ 64
  · rw [Nat.mod_eq_of_lt hposition]
  · have hmod := Nat.mod_le k (2 ^ 64)
    exact hp.still (by omega) (by omega) hk'

end ViewOf

/-! ## What equals a value -/

namespace Value

variable {v w : Value} {p q : View}

theorem equals_bool {b : Bool} : (Value.bool b).Equals w ↔ w = .bool b := by
  unfold Equals
  cases w with
  | bool c =>
    simp only [equal, Except.ok.injEq, beq_iff_eq, Value.bool.injEq]
    exact eq_comm
  | _ => simp [equal]

theorem equals_int {n : Int64} : (Value.int n).Equals w ↔ w = .int n := by
  unfold Equals
  cases w with
  | int m =>
    simp only [equal, Except.ok.injEq, beq_iff_eq, Value.int.injEq]
    exact eq_comm
  | _ => simp [equal]

theorem equals_function {f : Function} :
    (Value.function f).Equals w ↔ ∃ g, w = .function g ∧ f.sameInstance g = true := by
  unfold Equals
  cases w <;> simp [equal]

theorem equals_range {r : IntRange} : (Value.range (.int r)).Equals w ↔ w = .range (.int r) := by
  unfold Equals
  cases w with
  | range s =>
    cases s with
    | int s =>
      simp only [equal, Range.equal, Except.ok.injEq, beq_iff_eq, Value.range.injEq, Range.int.injEq]
      exact eq_comm
    | float s => simp [equal, Range.equal]
  | _ => simp [equal]

/-- A sequence is compared with another one by their views, and differs from all else. -/
theorem equal_view (hp : v.expectView = .ok p) :
    v.equal w =
      match w.expectView with
      | .ok q => (Value.slice p).equal (.slice q)
      | .error _ => .ok false := by
  have hleft : v.equal w = (Value.slice p).equal w := by
    cases v with
    | array a => cases hp; exact equal_array a w
    | slice u => cases hp; rfl
    | _ => cases hp
  rw [hleft, equal_slice]
  unfold equalCells
  cases w.expectView with
  | error e => rfl
  | ok q => exact (equal_slice p (.slice q)).symm

theorem equals_view (hp : v.expectView = .ok p) :
    v.Equals w ↔ ∃ q, w.expectView = .ok q ∧ (Value.slice p).Equals (.slice q) := by
  unfold Equals
  rw [equal_view hp]
  cases w.expectView with
  | error e => exact iff_of_false nofun fun ⟨_, h, _⟩ => (nomatch h)
  | ok q => exact ⟨fun h => ⟨q, rfl, h⟩, fun ⟨_, hq, h⟩ => by cases hq; exact h⟩

theorem ty_of_view (hp : v.expectView = .ok p) : v.ty = .array p.element := by
  cases v with
  | array a => cases hp; rfl
  | slice u => cases hp; rfl
  | _ => cases hp

end Value

theorem Function.sameInstance_iff {f g : Function} :
    f.sameInstance g = true ↔ f.target = g.target ∧ f.closureId? = g.closureId? := by
  simp [Function.sameInstance]

/-! ## The laws -/

namespace Value.Comparable

variable {u v w : Value} {p q : View}

theorem view (hv : v.Comparable) (hp : v.expectView = .ok p) :
    p.Readable ∧ ∀ x ∈ p.members, x.Comparable := by
  cases hv with
  | sequence hview hreadable helements =>
    rw [hview] at hp
    cases hp
    exact ⟨hreadable, helements⟩
  | _ => cases hp

/-- A view of storage whose elements can all be compared. -/
theorem of_values (hp : v.expectView = .ok p) (hstorage : p.InStorage)
    (hsize : p.array.size < 2 ^ 63)
    (h : ∀ x ∈ p.array.storage.values, x.family = p.element.family ∧ x.Comparable) :
    v.Comparable := by
  refine .sequence hp ⟨hstorage, hsize, fun x hx => (h x hx).1⟩ fun x hx => ?_
  obtain ⟨k, -, hk⟩ := List.mem_filterMap.mp hx
  exact (h x (List.mem_of_getElem? hk)).2

theorem refl (hv : v.Comparable) : v.Equals v := by
  induction hv with
  | bool b => exact equals_bool.mpr rfl
  | int n => exact equals_int.mpr rfl
  | function f => exact equals_function.mpr ⟨f, rfl, Function.sameInstance_iff.mpr ⟨rfl, rfl⟩⟩
  | range r => exact equals_range.mpr rfl
  | sequence hview hreadable _ ih =>
    exact (equals_view hview).mpr
      ⟨_, hview, (hreadable.equals_iff hreadable).mpr ⟨rfl, rfl, .refl ih⟩⟩

theorem symm (hv : v.Comparable) (hw : w.Comparable) (h : v.Equals w) : w.Equals v := by
  induction hv generalizing w with
  | bool b => cases equals_bool.mp h; exact h
  | int n => cases equals_int.mp h; exact h
  | function f =>
    obtain ⟨g, rfl, hsame⟩ := equals_function.mp h
    obtain ⟨htarget, hclosure⟩ := Function.sameInstance_iff.mp hsame
    exact equals_function.mpr
      ⟨f, rfl, Function.sameInstance_iff.mpr ⟨htarget.symm, hclosure.symm⟩⟩
  | range r => cases equals_range.mp h; exact h
  | sequence hview hreadable _ ih =>
    obtain ⟨q, hq, h⟩ := (equals_view hview).mp h
    obtain ⟨hqreadable, hqelements⟩ := hw.view hq
    obtain ⟨helement, hlength, hpairs⟩ := (hreadable.equals_iff hqreadable).mp h
    refine (equals_view hq).mpr ⟨_, hview,
      (hqreadable.equals_iff hreadable).mpr ⟨helement.symm, hlength.symm, ?_⟩⟩
    intro k y x hy hx
    exact ih x (List.mem_of_getElem? hx) (hqelements y (List.mem_of_getElem? hy))
      (hpairs k x y hx hy)

theorem trans (hu : u.Comparable) (hv : v.Comparable) (hw : w.Comparable) (huv : u.Equals v)
    (hvw : v.Equals w) : u.Equals w := by
  induction hu generalizing v w with
  | bool b => cases equals_bool.mp huv; exact hvw
  | int n => cases equals_int.mp huv; exact hvw
  | function f =>
    obtain ⟨g, rfl, hfg⟩ := equals_function.mp huv
    obtain ⟨h, rfl, hgh⟩ := equals_function.mp hvw
    rw [Function.sameInstance_iff] at hfg hgh
    exact equals_function.mpr ⟨h, rfl,
      Function.sameInstance_iff.mpr ⟨hfg.1.trans hgh.1, hfg.2.trans hgh.2⟩⟩
  | range r => cases equals_range.mp huv; exact hvw
  | @sequence u p hview hreadable _ ih =>
    obtain ⟨q, hq, huv⟩ := (equals_view hview).mp huv
    obtain ⟨r, hr, hvw⟩ := (equals_view hq).mp hvw
    obtain ⟨hqreadable, hqelements⟩ := hv.view hq
    obtain ⟨hrreadable, hrelements⟩ := hw.view hr
    obtain ⟨hpq, hpqlength, hpqpairs⟩ := (hreadable.equals_iff hqreadable).mp huv
    obtain ⟨hqr, hqrlength, hqrpairs⟩ := (hqreadable.equals_iff hrreadable).mp hvw
    refine (equals_view hview).mpr ⟨r, hr, (hreadable.equals_iff hrreadable).mpr
      ⟨hpq.trans hqr, hpqlength.trans hqrlength, ?_⟩⟩
    intro k x z hx hz
    -- The lengths agree, so the view in the middle has an element here as well.
    have hk : k < q.members.length := by
      have hkp := (List.getElem?_eq_some_iff.mp hx).1
      rw [hreadable.length_members] at hkp
      rw [hqreadable.length_members]
      omega
    have hy := List.getElem?_eq_getElem hk
    exact ih x (List.mem_of_getElem? hx) (hqelements _ (List.mem_of_getElem? hy))
      (hrelements z (List.mem_of_getElem? hz)) (hpqpairs k x _ hx hy) (hqrpairs k _ z hy hz)

/-- **A comparison has an answer.** -/
theorem total (hv : v.Comparable) (hw : w.Comparable) : ∃ b, v.equal w = .ok b := by
  induction hv generalizing w with
  | bool b => cases w <;> simp [equal]
  | int n => cases w <;> simp [equal]
  | function f => cases w <;> simp [equal]
  | range r => cases w <;> simp [equal]
  | @sequence v p hview hreadable _ ih =>
    rw [equal_view hview]
    cases hq : w.expectView with
    | error e => exact ⟨false, rfl⟩
    | ok q =>
      obtain ⟨hqreadable, hqelements⟩ := hw.view hq
      simp only [ViewOf.equal_of_entries hreadable.entries hqreadable.entries]
      split
      · exact equalAll_total fun x hx y hy => ih x hx (hqelements y hy)
      · exact ⟨false, rfl⟩

theorem ty_eq (hv : v.Comparable) (hw : w.Comparable) (h : v.Equals w) : v.ty = w.ty := by
  cases hv with
  | bool b => cases equals_bool.mp h; rfl
  | int n => cases equals_int.mp h; rfl
  | function f =>
    obtain ⟨g, rfl, hsame⟩ := equals_function.mp h
    exact congrArg Target.ty (Function.sameInstance_iff.mp hsame).1
  | range r => cases equals_range.mp h; rfl
  | sequence hview hreadable _ =>
    obtain ⟨q, hq, h⟩ := (equals_view hview).mp h
    rw [ty_of_view hview, ty_of_view hq, ((hreadable.equals_iff (hw.view hq).1).mp h).1]

theorem equals_iff_get (hv : v.Comparable) (hw : w.Comparable) (hp : v.expectView = .ok p)
    (hq : w.expectView = .ok q) :
    v.Equals w ↔ p.element = q.element ∧ p.length = q.length ∧
      ∀ i : Int64, 1 ≤ i.toInt → i.toInt ≤ p.length →
        ∃ x y, p.get i = .ok x ∧ q.get i = .ok y ∧ x.Equals y := by
  obtain ⟨hpreadable, -⟩ := hv.view hp
  obtain ⟨hqreadable, -⟩ := hw.view hq
  have hviews : v.Equals w ↔ (Value.slice p).Equals (.slice q) := by
    rw [equals_view hp, hq]
    exact ⟨fun ⟨_, h, hequal⟩ => by cases h; exact hequal, fun h => ⟨q, rfl, h⟩⟩
  rw [hviews, hpreadable.equals_iff hqreadable]
  refine and_congr_right fun _ => and_congr_right fun hlength => ?_
  exact hpreadable.pairwise_iff_get hqreadable hlength

/-- A sequence equals every array of its elements, and is equalled by it. -/
theorem equals_array (hv : v.Comparable) (hp : v.expectView = .ok p) {a : ArrayValue}
    (helement : a.element = p.element) (hvalues : a.storage.values = p.members) :
    v.Equals (.array a) ∧ (Value.array a).Equals v := by
  obtain ⟨hreadable, helements⟩ := hv.view hp
  have hentries := hreadable.entries_of_values hvalues
  have hsize : (ViewOf.whole a).length = p.length := by
    rw [← ViewOf.length_entries, hentries, List.length_map, hreadable.length_members]
  have hpairs := (equalAll_eq_true rfl).mpr (PairwiseEqual.refl fun x hx => (helements x hx).refl)
  constructor
  · refine (equals_view hp).mpr ⟨_, rfl, ?_⟩
    unfold Equals
    rw [ViewOf.equal_of_entries hreadable.entries hentries, if_pos ⟨helement.symm, hsize.symm⟩]
    exact hpairs
  · refine (equals_view rfl).mpr ⟨_, hp, ?_⟩
    unfold Equals
    rw [ViewOf.equal_of_entries hentries hreadable.entries, if_pos ⟨helement, hsize⟩]
    exact hpairs

end Value.Comparable

/-- **Equality is an equivalence that ignores representation.** On values without floats whose views
are in storage, a comparison has an answer, and equality is reflexive, symmetric and transitive. Equal
values have one type. Two arrays or slices are equal exactly if they have one element type, one length,
and equal elements at every index. Each equals the slice of all of it and the array of it. A function
equals itself in whichever form it holds its closure. -/
theorem Value.equal_equivalence (u v w : Value) (hu : u.Comparable) (hv : v.Comparable)
    (hw : w.Comparable) :
    (∃ b, u.equal v = .ok b) ∧
    u.Equals u ∧ (u.Equals v → v.Equals u) ∧ (u.Equals v → v.Equals w → u.Equals w) ∧
    (u.Equals v → u.ty = v.ty) ∧
    (∀ p q, u.expectView = .ok p → v.expectView = .ok q →
      (u.Equals v ↔ p.element = q.element ∧ p.length = q.length ∧
        ∀ i : Int64, 1 ≤ i.toInt → i.toInt ≤ p.length →
          ∃ x y, p.get i = .ok x ∧ q.get i = .ok y ∧ x.Equals y)) ∧
    (∀ p, u.expectView = .ok p →
      (∃ q, p.slice (.forward none none) = .ok q ∧ u.Equals (.slice q) ∧ (Value.slice q).Equals u) ∧
      ∀ (call : Function → List Value → Run Store Value) (s : Store),
        ∃ a t, (Builtin.viewToArray p).run call s = (.ok a, t) ∧
          u.Equals (.array a) ∧ (Value.array a).Equals u) ∧
    (∀ f g : Function, g.target = f.target → g.closureId? = f.closureId? →
      (Value.function f).Equals (.function g)) ∧
    ∀ f : Function, (Value.function f).Equals (.function f.selfReference) := by
  refine ⟨hu.total hv, hu.refl, hu.symm hv, hu.trans hv hw, hu.ty_eq hv,
    fun p q hp hq => hu.equals_iff_get hv hp hq, fun p hp => ⟨?_, fun call s => ?_⟩, ?_, ?_⟩
  · obtain ⟨hreadable, helements⟩ := hu.view hp
    have hslice : (Value.slice p).Comparable := .sequence rfl hreadable helements
    refine ⟨p, p.slice_forward, (equals_view hp).mpr ⟨p, rfl, hslice.refl⟩, ?_⟩
    exact (equals_view rfl).mpr ⟨p, hp, hslice.refl⟩
  · obtain ⟨a, t, hrun, helement, hvalues, -⟩ := (hu.view hp).1.viewToArray call s
    exact ⟨a, t, hrun, hu.equals_array hp helement hvalues⟩
  · intro f g htarget hclosure
    exact equals_function.mpr
      ⟨g, rfl, Function.sameInstance_iff.mpr ⟨htarget.symm, hclosure.symm⟩⟩
  · intro f
    exact equals_function.mpr ⟨_, rfl, f.sameInstance_selfReference⟩

namespace Rows

def target : Target := ⟨0, some "f", ⟨[.int], .int⟩, some .empty⟩

/-- Two instances of one function. -/
def first : Function := ⟨target, some (.shared 0)⟩

def second : Function := ⟨target, some (.shared 1)⟩

/-- Both in an array, and both again in an array that is to be read backward. -/
def row : Value := .array ⟨0, target.ty, .boxed #[.function first, .function second]⟩

def backward : View :=
  ⟨⟨1, target.ty, .boxed #[.function second, .function first.selfReference]⟩, 1, -1, 2⟩

/-- Arrays of one row each: as an array, as a slice of an array, and a slice in an array. -/
def plain : Value := .array ⟨2, .array target.ty, .boxed #[row]⟩

def viewed : Value := .slice ⟨⟨3, .array target.ty, .boxed #[row, .slice backward]⟩, 1, -1, 1⟩

def mixed : Value := .array ⟨4, .array target.ty, .boxed #[.slice backward]⟩

theorem row_comparable : row.Comparable :=
  .of_values rfl (ViewOf.inStorage_whole _) (by decide) (List.forall_mem_cons.mpr
    ⟨⟨rfl, .function first⟩, List.forall_mem_singleton.mpr ⟨rfl, .function second⟩⟩)

theorem backward_comparable : (Value.slice backward).Comparable := by
  have hstorage : backward.InStorage := by
    intro k hk
    match k with
    | 0 | 1 => decide
  exact .of_values rfl hstorage (by decide) (List.forall_mem_cons.mpr
    ⟨⟨rfl, .function second⟩, List.forall_mem_singleton.mpr ⟨rfl, .function first.selfReference⟩⟩)

theorem plain_comparable : plain.Comparable :=
  .of_values rfl (ViewOf.inStorage_whole _) (by decide)
    (List.forall_mem_singleton.mpr ⟨rfl, row_comparable⟩)

theorem viewed_comparable : viewed.Comparable := by
  refine .of_values rfl (fun k hk => ?_) (by decide) (List.forall_mem_cons.mpr
    ⟨⟨rfl, row_comparable⟩, List.forall_mem_singleton.mpr ⟨rfl, backward_comparable⟩⟩)
  match k with
  | 0 => decide

theorem mixed_comparable : mixed.Comparable :=
  .of_values rfl (ViewOf.inStorage_whole _) (by decide)
    (List.forall_mem_singleton.mpr ⟨rfl, backward_comparable⟩)

end Rows

/-- An array of an array, a slice of an array of slices and an array of slices: functions are stored in
either form and read in either direction, and all three are equal. -/
theorem rows_equal :
    Rows.plain.Comparable ∧ Rows.viewed.Comparable ∧ Rows.mixed.Comparable ∧
      Rows.plain.Equals Rows.viewed ∧ Rows.viewed.Equals Rows.mixed ∧
      Rows.plain.Equals Rows.mixed := by
  have hviewed : Rows.plain.Equals Rows.viewed := by
    with_unfolding_all rfl
  have hmixed : Rows.viewed.Equals Rows.mixed := by
    with_unfolding_all rfl
  obtain ⟨-, -, -, htrans, -⟩ := Value.equal_equivalence Rows.plain Rows.viewed Rows.mixed
    Rows.plain_comparable Rows.viewed_comparable Rows.mixed_comparable
  exact ⟨Rows.plain_comparable, Rows.viewed_comparable, Rows.mixed_comparable, hviewed, hmixed,
    htrans hviewed hmixed⟩

end TypedEval
