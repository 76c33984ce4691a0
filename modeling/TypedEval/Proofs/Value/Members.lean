import TypedEval.Proofs.View.Slicing

/-!
# The elements of a sequence

`Value.members` lists the elements of a sequence without enumerating it: the cells of an array, the
cells in the places of a slice, and the progression of a closed range in unbounded integers or by the
rounded products of its index. An enumeration that starts gives exactly these, one by one
(`Value.toList_elements`). It does not start where a range cannot be counted, and fails with the
cause that counting fails with.
-/

namespace TypedEval

/-! ## Storages and views -/

namespace Storage

/-- The elements of a storage, boxed. -/
def values : Storage Value → List Value
  | .bools items => items.toList.map .bool
  | .ints items => items.toList.map .int
  | .floats items => items.toList.map .float
  | .boxed items => items.toList

variable {s : Storage Value}

@[simp] theorem length_values (s : Storage Value) : s.values.length = s.size := by
  cases s <;> simp [values, size]

theorem read_of_value {p : UInt64} {v : Value} (h : s.values[p.toNat]? = some v) :
    s.read p = .ok v := by
  cases s with
  | boxed items =>
    have h : items[p.toNat]? = some v := by simpa [values] using h
    simp only [read, h]
  | _ items =>
    obtain ⟨x, hx, rfl⟩ : ∃ x, items[p.toNat]? = some x ∧ _ = v := by
      simpa [values, Option.map_eq_some_iff] using h
    simp only [read, hx]

end Storage

namespace ViewOf

/-- The elements of a view, from the places of its cells. -/
def members (v : View) : List Value :=
  (List.range v.length).filterMap fun (k : Nat) => v.array.storage.values[(v.place k).toNat]?

/-- **A view as the program makes them**: its cells lie in a storage that memory can hold, and hold
elements of the family of the element type. -/
structure Readable (v : View) : Prop where
  inStorage : v.InStorage
  size : v.array.size < 2 ^ 63
  family : ∀ x ∈ v.array.storage.values, x.family = v.element.family

variable {v : View}

/-- **The entries of a readable view are its members.** -/
theorem Readable.entries (hv : v.Readable) : v.entries = v.members.map .ok := by
  have found (k : Nat) (hk : k < v.length) :
      ∃ x, v.array.storage.values[(v.place k).toNat]? = some x ∧
        v.array.storage.read (v.cell k) = .ok x := by
    have hcell := toNat_cell hv.inStorage hv.size hk
    have hlt := cell_lt_size hv.inStorage hv.size hk
    have hsame : (v.cell k).toNat = (v.place k).toNat := by omega
    have hlength : (v.cell k).toNat < v.array.storage.values.length := by
      rw [Storage.length_values]
      exact hlt
    have hx := List.getElem?_eq_getElem hlength
    exact ⟨_, by rw [← hsame]; exact hx, Storage.read_of_value hx⟩
  have listed (ks : List Nat) (hks : ∀ k ∈ ks, k < v.length) :
      ks.map (fun k => v.array.storage.read (v.cell k)) =
        (ks.filterMap fun (k : Nat) => v.array.storage.values[(v.place k).toNat]?).map .ok := by
    induction ks with
    | nil => rfl
    | cons k ks ih =>
      obtain ⟨hk, hks⟩ := List.forall_mem_cons.mp hks
      obtain ⟨x, hx, hread⟩ := found k hk
      rw [List.map_cons, List.filterMap_cons, hx, List.map_cons, hread, ih hks]
  rw [entries_eq hv.inStorage hv.size]
  exact listed _ fun k hk => List.mem_range.mp hk

theorem Readable.family_of_mem (hv : v.Readable) {x : Value} (hx : x ∈ v.members) :
    x.family = v.element.family := by
  obtain ⟨k, -, hk⟩ := List.mem_filterMap.mp hx
  exact hv.family x (List.mem_of_getElem? hk)

/-- The members of a whole array are its values. -/
theorem members_whole (a : ArrayValue) : (whole a).members = a.storage.values := by
  have place (k : Nat) : ((whole a).place k).toNat = k := by
    have hplace : (whole a).place k = k := by
      have hzero : (whole a).offset.toNat = 0 := rfl
      have hone : (whole a).step.toInt = 1 := rfl
      simp [ViewOf.place, hzero, hone]
    rw [hplace, Int.toNat_natCast]
  have listed (vs : List Value) : (List.range vs.length).filterMap (vs[·]?) = vs := by
    induction vs with
    | nil => rfl
    | cons v vs ih =>
      rw [List.length_cons, List.range_succ_eq_map, List.filterMap_cons, List.filterMap_map]
      exact congrArg (v :: ·) ih
  have length : (whole a).length = a.storage.values.length := (Storage.length_values _).symm
  simp only [members, place, length]
  exact listed _

end ViewOf

/-! ## Ranges -/

/-- The progression of a closed range of integers. -/
def IntRange.members (r : IntRange) : List Value :=
  match r.first, r.count with
  | some first, .ok n =>
    (List.range n).map fun k => .int (Int64.ofInt (first.toInt + (k : Nat) * r.step.toInt))
  | _, _ => []

/-- The elements of a closed range of floats, each from its index. -/
def FloatRange.members (r : FloatRange) : List Value :=
  match r.first, r.count with
  | some first, .ok n =>
    (List.range n).map fun k => .float (first + (UInt64.ofNat k).toFloat * r.step)
  | _, _ => []

/-- The elements of a closed range. -/
def Range.members : Range → List Value
  | .int r => r.members
  | .float r => r.members

namespace IntRange

variable {r : IntRange} {n : Nat}

theorem bounds_eq_ok {first last : Int64} (h : r.bounds = .ok (first, last)) :
    r.first = some first ∧ r.last = some last := by
  unfold bounds at h
  split at h
  · next hfirst hlast => cases h; exact ⟨hfirst, hlast⟩
  · cases h

/-- A count is what a slicer selects between the bounds. -/
theorem countBetween_eq_ok {first last step : Int64} (hstep : step.toInt ≠ 0)
    (h : countBetween first last step = .ok n) :
    n = ViewOf.selected first.toInt last.toInt step.toInt := by
  rw [ViewOf.selected_eq hstep]
  have h : (if ViewOf.span first.toInt last.toInt step.toInt < 0 then .ok 0
      else if (ViewOf.span first.toInt last.toInt step.toInt).toNat / step.toInt.natAbs + 1 ≤ maxCount
      then .ok ((ViewOf.span first.toInt last.toInt step.toInt).toNat / step.toInt.natAbs + 1)
      else .error _) = Except.ok n := h
  split at h
  · next hspan => cases h; rw [if_pos hspan]
  · next hspan =>
    rw [if_neg hspan]
    split at h <;> cases h
    rfl

/-- **A range that can be counted enumerates its progression.** -/
theorem steps_of_count (h : r.count = .ok n) :
    ∃ it, r.steps = .ok it ∧ (Elements.ints it).toList = r.members.map .ok := by
  obtain ⟨⟨first, last⟩, hbounds, hcount⟩ := bind_eq_ok.mp h
  obtain ⟨hfirst, hlast⟩ := bounds_eq_ok hbounds
  have hn := countBetween_eq_ok r.toInt_step_ne_zero hcount
  refine ⟨⟨first, r.step, n⟩, ?_, ?_⟩
  · unfold steps
    rw [hbounds, ok_bind]
    exact congrArg (· >>= _) hcount
  have hfits (j : Nat) (hj : j < n) : fitsWord (first.toInt + j * r.step.toInt) = true :=
    fitsWord_eq_true.mpr (ViewOf.fits_of_lt_selected r.toInt_step_ne_zero (hn ▸ hj))
  rw [IntSteps.toList_ints]
  show (IntSteps.take n ⟨first, r.step, n⟩).map _ = _
  rw [IntSteps.take_eq r.step n first hfits]
  simp only [members, hfirst, h, List.map_map]
  rfl

end IntRange

namespace FloatRange

variable {r : FloatRange} {n : Nat}

theorem take_floats (first step : Float) (count limit index : Nat) (h : index + limit ≤ count) :
    (Elements.floats ⟨first, step, index, count⟩).take limit =
      (List.range' index limit).map fun k =>
        .ok (.float (first + (UInt64.ofNat k).toFloat * step)) := by
  induction limit generalizing index with
  | zero => rfl
  | succ limit ih =>
    have hlt : index < count := by omega
    simp only [Elements.take, Elements.next?, FloatSteps.next?, hlt, if_true, Option.map_some,
      List.range'_succ, List.map_cons, ih (index + 1) (by omega)]

/-- **A range that can be counted enumerates its elements.** -/
theorem steps_of_count (h : r.count = .ok n) :
    ∃ it, r.steps = .ok it ∧ (Elements.floats it).toList = r.members.map .ok := by
  obtain ⟨⟨first, last⟩, hbounds, hcount⟩ := bind_eq_ok.mp h
  have hfirst : r.first = some first := by
    unfold bounds at hbounds
    split at hbounds
    · next hfirst _ => cases hbounds; exact hfirst
    · cases hbounds
  refine ⟨⟨first, r.step, 0, n⟩, ?_, ?_⟩
  · unfold steps
    rw [hbounds, ok_bind]
    exact congrArg (· >>= _) hcount
  show (Elements.floats _).take (n - 0) = _
  rw [take_floats _ _ _ _ _ (by omega), Nat.sub_zero]
  simp only [members, hfirst, h, List.map_map, List.range_eq_range']
  rfl

end FloatRange

namespace Range

variable {r : Range}

theorem elements_of_count {n : Nat} (h : r.count = .ok n) :
    ∃ it, r.elements = .ok it ∧ it.toList = r.members.map .ok := by
  cases r with
  | int r =>
    obtain ⟨it, hit, hlist⟩ := IntRange.steps_of_count h
    exact ⟨.ints it, by simp only [elements, hit]; rfl, hlist⟩
  | float r =>
    obtain ⟨it, hit, hlist⟩ := FloatRange.steps_of_count h
    exact ⟨.floats it, by simp only [elements, hit]; rfl, hlist⟩

/-- A range that cannot be counted cannot be enumerated, for the same cause. -/
theorem elements_of_uncounted {cause : Cause} (h : r.count = .error cause) :
    r.elements = .error cause := by
  cases r with
  | int r =>
    have h : r.count = .error cause := h
    unfold IntRange.count at h
    simp only [elements, IntRange.steps]
    cases hb : r.bounds with
    | error e => rw [hb] at h; cases h; rfl
    | ok b => rw [hb, ok_bind] at h; simp only [ok_bind, h]; rfl
  | float r =>
    have h : r.count = .error cause := h
    unfold FloatRange.count at h
    simp only [elements, FloatRange.steps]
    cases hb : r.bounds with
    | error e => rw [hb] at h; cases h; rfl
    | ok b => rw [hb, ok_bind] at h; simp only [ok_bind, h]; rfl

theorem family_of_mem {x : Value} (hx : x ∈ r.members) : x.family = r.element.family := by
  cases r with
  | int r =>
    simp only [members, IntRange.members] at hx
    split at hx
    · obtain ⟨_, _, rfl⟩ := List.mem_map.mp hx; rfl
    · cases hx
  | float r =>
    simp only [members, FloatRange.members] at hx
    split at hx
    · obtain ⟨_, _, rfl⟩ := List.mem_map.mp hx; rfl
    · cases hx

end Range

/-! ## Sequences -/

namespace Value

/-- **A sequence as the program makes them.** -/
def IsSequence : Value → Prop
  | .array a => (ViewOf.whole a).Readable
  | .slice v => v.Readable
  | .range _ => True
  | _ => False

/-- **The elements of a sequence**, in order. -/
def members : Value → List Value
  | .array a => a.storage.values
  | .slice v => v.members
  | .range r => r.members
  | _ => []

/-- Why the elements of a sequence cannot be counted: a range is open, or has too many. -/
def uncountable? : Value → Option Cause
  | .range r =>
    match r.count with
    | .error cause => some cause
    | .ok _ => none
  | _ => none

variable {v : Value}

theorem elements_of_uncountable {cause : Cause} (h : v.uncountable? = some cause) :
    v.elements = .error (.raised cause) := by
  cases v with
  | range r =>
    simp only [uncountable?] at h
    split at h
    · next hr =>
      cases h
      simp only [elements, Range.elements_of_uncounted hr]
      rfl
    · cases h
  | _ => cases h

/-- **An enumeration gives the elements**, one by one. -/
theorem toList_elements (hv : v.IsSequence) (h : v.uncountable? = none) :
    ∃ it, v.elements = .ok it ∧ it.toList = v.members.map .ok := by
  cases v with
  | array a =>
    refine ⟨_, rfl, ?_⟩
    rw [ViewOf.toList_elements, ViewOf.Readable.entries hv, ViewOf.members_whole]
    rfl
  | slice w => exact ⟨_, rfl, by rw [ViewOf.toList_elements, ViewOf.Readable.entries hv]; rfl⟩
  | range r =>
    simp only [uncountable?] at h
    split at h
    · cases h
    · next n hr =>
      obtain ⟨it, hit, hlist⟩ := Range.elements_of_count hr
      exact ⟨it, by simp only [elements, hit]; rfl, hlist⟩
  | _ => exact hv.elim

/-- The elements are of the family of the element type. -/
theorem IsSequence.elementType (hv : v.IsSequence) :
    ∃ element, v.elementType = .ok element ∧ ∀ x ∈ v.members, x.family = element.family := by
  cases v with
  | array a => exact ⟨_, rfl, fun x hx => ViewOf.Readable.family hv x hx⟩
  | slice w => exact ⟨_, rfl, fun x hx => ViewOf.Readable.family_of_mem hv hx⟩
  | range r => exact ⟨_, rfl, fun x hx => Range.family_of_mem hx⟩
  | _ => exact hv.elim

end Value

/-! ## Counting an enumeration -/

namespace Elements

/-- **Each element is one less to come.** -/
theorem next?_cases (it : Elements) :
    it.remaining = 0 ∧ it.next? = none ∨
      ∃ v rest, it.next? = some (v, rest) ∧ it.remaining = rest.remaining + 1 := by
  cases it with
  | cells storage next step remaining =>
    cases remaining with
    | zero => exact .inl ⟨rfl, rfl⟩
    | succ n => exact .inr ⟨_, _, rfl, rfl⟩
  | ints it =>
    obtain ⟨next, step, remaining⟩ := it
    cases remaining with
    | zero => exact .inl ⟨rfl, rfl⟩
    | succ n => exact .inr ⟨_, _, rfl, rfl⟩
  | floats it =>
    by_cases h : it.index < it.count
    · refine .inr ⟨_, _, by simp only [next?, FloatSteps.next?, h, if_true, Option.map_some]; rfl, ?_⟩
      simp only [remaining]
      omega
    · refine .inl ⟨by simp only [remaining]; omega, ?_⟩
      simp only [next?, FloatSteps.next?, h, if_false, Option.map_none]

theorem length_take (limit : Nat) (it : Elements) (h : limit ≤ it.remaining) :
    (it.take limit).length = limit := by
  induction limit generalizing it with
  | zero => rfl
  | succ limit ih =>
    obtain ⟨hzero, -⟩ | ⟨v, rest, hnext, hremaining⟩ := it.next?_cases
    · omega
    · simp only [take, hnext, List.length_cons, ih rest (by omega)]

theorem length_toList (it : Elements) : it.toList.length = it.remaining :=
  length_take it.remaining it (Nat.le_refl _)

end Elements

end TypedEval
