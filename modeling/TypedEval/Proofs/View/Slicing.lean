import TypedEval.Proofs.Check
import TypedEval.Proofs.View.Positions

/-!
# Slicing agrees with enumeration

A slicer is an integer range with bounds filled in from the length of the view. The law
(`ViewOf.slice_enumerates`): slicing a view in storage fails exactly at a given bound outside the
view, where one last bound is admitted that makes an empty slice; otherwise it gives a view of the
same array, again in storage, whose elements are those of the first view at the elements of the
closed range, in order.

Two countings meet here. A slicer counts with a ceiling over half-open bounds (`selected`), a range
with a floor over closed ones (`IntRange.countBetween`); `selected_eq` brings both to one form. A
composed stride is the distance of two cells in storage, so it always fits a word.
-/

namespace TypedEval

/-! ## Filled-in bounds -/

namespace IntRange

variable {r : IntRange} {n : Nat}

/-- The first bound over `n` elements, given or filled in. -/
def firstOver (r : IntRange) (n : Nat) : Int :=
  match r.first with
  | some first => first.toInt
  | none => if 0 < r.step.toInt then 1 else n

/-- The last bound over `n` elements, given or filled in. -/
def lastOver (r : IntRange) (n : Nat) : Int :=
  match r.last with
  | some last => last.toInt
  | none => if 0 < r.step.toInt then n else 1

/-- A first bound is given, outside `1 … n`. -/
def FirstOutside (r : IntRange) (n : Nat) : Prop :=
  ∃ first, r.first = some first ∧ ¬ (1 ≤ first.toInt ∧ first.toInt ≤ n)

/-- A last bound is given, outside `1 … n` and not one unit step before the first bound. -/
def LastOutside (r : IntRange) (n : Nat) : Prop :=
  ∃ last, r.last = some last ∧ ¬ (1 ≤ last.toInt ∧ last.toInt ≤ n) ∧
    ¬ (r.step.toInt.natAbs = 1 ∧ last.toInt = r.firstOver n - r.step.toInt)

/-- **A closed range is a slicer with its bounds filled in** over `n` elements. -/
def Closed (r : IntRange) (n : Nat) (c : IntRange) : Prop :=
  c.step = r.step ∧
    (∃ first, c.first = some first ∧ first.toInt = r.firstOver n) ∧
    ∃ last, c.last = some last ∧ last.toInt = r.lastOver n

theorem toInt_step_ne_zero (r : IntRange) : r.step.toInt ≠ 0 := by
  intro h
  exact r.step_ne_zero (Int64.toInt_inj.mp h)

theorem firstOver_of_some {first : Int64} (h : r.first = some first) :
    r.firstOver n = first.toInt := by
  simp [firstOver, h]

theorem lastOver_of_some {last : Int64} (h : r.last = some last) : r.lastOver n = last.toInt := by
  simp [lastOver, h]

/-- Filled-in bounds are words unless there are more elements than words count. -/
theorem exists_closed (r : IntRange) (hn : n < 2 ^ 63) : ∃ c, r.Closed n c := by
  have word (x : Int) (h : -2 ^ 63 ≤ x ∧ x < 2 ^ 63) : (Int64.ofInt x).toInt = x :=
    Int64.toInt_ofInt_of_le h.1 h.2
  have hfirst : -2 ^ 63 ≤ r.firstOver n ∧ r.firstOver n < 2 ^ 63 := by
    cases hf : r.first with
    | some first => rw [firstOver_of_some hf]; exact ⟨first.le_toInt, first.toInt_lt⟩
    | none => simp only [firstOver, hf]; split <;> omega
  have hlast : -2 ^ 63 ≤ r.lastOver n ∧ r.lastOver n < 2 ^ 63 := by
    cases hl : r.last with
    | some last => rw [lastOver_of_some hl]; exact ⟨last.le_toInt, last.toInt_lt⟩
    | none => simp only [lastOver, hl]; split <;> omega
  exact ⟨{ r with
      first := some (Int64.ofInt (r.firstOver n)), last := some (Int64.ofInt (r.lastOver n)) },
    rfl, ⟨_, rfl, word _ hfirst⟩, _, rfl, word _ hlast⟩

theorem firstOver_bounds (hn : 0 < n) (h : ¬ r.FirstOutside n) :
    1 ≤ r.firstOver n ∧ r.firstOver n ≤ n := by
  cases hf : r.first with
  | some first =>
    rw [firstOver_of_some hf]
    exact Classical.byContradiction fun hout => h ⟨first, hf, hout⟩
  | none =>
    simp only [firstOver, hf]
    split <;> omega

/-- A last bound that is not outside is in `1 … n`, or one unit step before the first bound. -/
theorem lastOver_bounds (hn : 0 < n) (h : ¬ r.LastOutside n) :
    (1 ≤ r.lastOver n ∧ r.lastOver n ≤ n) ∨
      r.step.toInt.natAbs = 1 ∧ r.lastOver n = r.firstOver n - r.step.toInt := by
  cases hl : r.last with
  | some last =>
    rw [lastOver_of_some hl]
    by_cases inside : 1 ≤ last.toInt ∧ last.toInt ≤ n
    · exact .inl inside
    · right
      exact Classical.byContradiction fun hnot => h ⟨last, hl, inside, hnot⟩
  | none =>
    left
    simp only [lastOver, hl]
    split <;> omega

end IntRange

namespace ViewOf

variable {r : IntRange} {n : Nat}

theorem firstBound_of_outside (hn : 0 < n) {first : Int64} (hf : r.first = some first)
    (hout : ¬ (1 ≤ first.toInt ∧ first.toInt ≤ n)) :
    firstBound r n = .error (.invalidSlice first n) := by
  unfold firstBound
  rw [hf]
  exact if_pos (by omega)

theorem firstBound_of_inside (hn : 0 < n) (h : ¬ r.FirstOutside n) :
    firstBound r n = .ok (r.firstOver n) := by
  have bounds := IntRange.firstOver_bounds hn h
  cases hf : r.first with
  | some first =>
    rw [IntRange.firstOver_of_some hf] at bounds ⊢
    simp only [firstBound, hf]
    exact if_neg (by omega)
  | none => simp only [firstBound, IntRange.firstOver, hf]

theorem lastBound_of_outside {last : Int64} (hl : r.last = some last)
    (hout : ¬ (1 ≤ last.toInt ∧ last.toInt ≤ n))
    (hnot : ¬ (r.step.toInt.natAbs = 1 ∧ last.toInt = r.firstOver n - r.step.toInt)) :
    lastBound r n (r.firstOver n) = .error (.invalidSlice last n) := by
  unfold lastBound
  rw [hl]
  exact if_pos ⟨hnot, by omega⟩

theorem lastBound_of_inside (hn : 0 < n) (h : ¬ r.LastOutside n) :
    lastBound r n (r.firstOver n) = .ok (r.lastOver n) := by
  have bounds := IntRange.lastOver_bounds hn h
  cases hl : r.last with
  | some last =>
    rw [IntRange.lastOver_of_some hl] at bounds ⊢
    simp only [lastBound, hl]
    refine if_neg ?_
    rintro ⟨hnot, hout⟩
    obtain inside | hempty := bounds
    · omega
    · exact hnot hempty
  | none => simp only [lastBound, IntRange.lastOver, hl]

/-! ## Counting -/

/-- How far the last bound is from the first, in the direction of the step. -/
def span (first last step : Int) : Int := if 0 < step then last - first else first - last

theorem tdiv_add_self {m p : Int} (hm : 0 ≤ m) (hp : 0 < p) :
    (Int.tdiv (m + p) p).toNat = m.toNat / p.natAbs + 1 := by
  obtain ⟨m, rfl⟩ := Int.eq_ofNat_of_zero_le hm
  obtain ⟨p, rfl⟩ := Int.eq_ofNat_of_zero_le (Int.le_of_lt hp)
  rw [← Int.natCast_add, ← Int.ofNat_tdiv, Int.toNat_natCast, Int.toNat_natCast, Int.natAbs_natCast]
  exact Nat.add_div_right m (by omega)

/-- **The ceiling over half-open bounds is the floor over closed ones, plus one.** -/
theorem selected_eq {first last step : Int} (hstep : step ≠ 0) :
    selected first last step =
      if span first last step < 0 then 0
      else (span first last step).toNat / step.natAbs + 1 := by
  unfold selected span
  simp only
  by_cases hpos : 0 < step
  · rw [Int.sign_eq_one_of_pos hpos]
    simp only [hpos, if_true]
    by_cases hspan : last - first < 0
    · rw [if_pos (by omega), if_pos hspan]
    · rw [if_neg (by omega), if_neg hspan, ← tdiv_add_self (by omega) hpos]
      congr 2
      omega
  · rw [Int.sign_eq_neg_one_of_neg (by omega)]
    simp only [hpos, if_false]
    by_cases hspan : first - last < 0
    · rw [if_pos (by omega), if_pos hspan]
    · rw [if_neg (by omega), if_neg hspan, ← Int.natAbs_neg, ← tdiv_add_self (by omega) (by omega)]
      congr 2
      omega

/-- What is selected lies between the bounds. -/
theorem between_of_lt_selected {first last step : Int} (hstep : step ≠ 0) {j : Nat}
    (hj : j < selected first last step) :
    min first last ≤ first + j * step ∧ first + j * step ≤ max first last := by
  rw [selected_eq hstep] at hj
  split at hj
  · omega
  · next hspan =>
    have hle : j * step.natAbs ≤ (span first last step).toNat :=
      Nat.le_trans (Nat.mul_le_mul_right _ (by omega)) (Nat.div_mul_le_self _ _)
    have hproduct : (j * step.natAbs : Nat) ≤ span first last step := by omega
    unfold span at hproduct
    obtain hneg | hpos : step < 0 ∨ 0 < step := by omega
    · have habs : ((j * step.natAbs : Nat) : Int) = -(j * step) := by
        rw [Int.natCast_mul, Int.ofNat_natAbs_of_nonpos (by omega), Int.mul_neg]
      rw [habs, if_neg (by omega)] at hproduct
      have hnonneg : 0 ≤ (j : Int) * -step := Int.mul_nonneg (by omega) (by omega)
      rw [Int.mul_neg] at hnonneg
      omega
    · have habs : ((j * step.natAbs : Nat) : Int) = j * step := by
        rw [Int.natCast_mul, Int.natAbs_of_nonneg (by omega)]
      rw [habs, if_pos hpos] at hproduct
      have hnonneg : 0 ≤ (j : Int) * step := Int.mul_nonneg (by omega) (by omega)
      omega

/-- Between two words there are words only, so nothing that is selected wraps. -/
theorem fits_of_lt_selected {first last : Int64} {step : Int} (hstep : step ≠ 0) {j : Nat}
    (hj : j < selected first.toInt last.toInt step) :
    -2 ^ 63 ≤ first.toInt + j * step ∧ first.toInt + j * step < 2 ^ 63 := by
  have hbetween := between_of_lt_selected hstep hj
  have hfirstLeast := first.le_toInt
  have hfirstMost := first.toInt_lt
  have hlastLeast := last.le_toInt
  have hlastMost := last.toInt_lt
  omega

/-! ## The sliced view -/

section

variable {α : Type} {v w : ViewOf α} {first last : Int}

/-- **A view picks cells of another**: those at the one-based indices `first + j · step`. -/
structure Picks (v w : ViewOf α) (first step : Int) : Prop where
  array : w.array = v.array
  inside : ∀ j : Nat, j < w.length → 0 ≤ first - 1 + j * step ∧ first - 1 + j * step < v.length
  place : ∀ j : Nat, j < w.length → w.place j = v.place (first - 1 + j * step)

theorem place_add (v : ViewOf α) (i k : Int) : v.place (i + k) = v.place i + k * v.step.toInt := by
  simp only [ViewOf.place]
  rw [Int.add_mul]
  omega

theorem Picks.inStorage {step : Int} (h : v.Picks w first step) (hv : v.InStorage) :
    w.InStorage := by
  intro j hj
  obtain ⟨hlow, hhigh⟩ := h.inside j hj
  have hplace := hv (first - 1 + j * step).toNat (by omega)
  rw [Int.toNat_of_nonneg hlow] at hplace
  rw [h.place j hj, h.array]
  exact hplace

theorem Picks.cell {step : Int} (h : v.Picks w first step) {j : Nat} (hj : j < w.length) :
    w.cell j = v.cell (first - 1 + j * step).toNat := by
  have hlow := (h.inside j hj).1
  unfold ViewOf.cell
  rw [h.place j hj, Int.toNat_of_nonneg hlow]

theorem slice_of_selected_zero (hfirst : firstBound r v.length = .ok first)
    (hlast : lastBound r v.length first = .ok last)
    (hcount : selected first last r.step.toInt = 0) : v.slice r = .ok { v with length := 0 } := by
  unfold slice
  rw [hfirst, lift_cause_ok, ok_bind, hlast, lift_cause_ok, ok_bind]
  exact if_pos hcount

/-- A slice with elements has its offset at the first one; the stride of a single element is left
alone. -/
theorem slice_of_selected_pos (hfirst : firstBound r v.length = .ok first)
    (hlast : lastBound r v.length first = .ok last) {offset : UInt64}
    (hcount : selected first last r.step.toInt ≠ 0)
    (hoffset : v.position (first - 1).toNat = .ok offset) {step : Int64}
    (hstep : if selected first last r.step.toInt = 1 then step = v.step
      else fitsWord (r.step.toInt * v.step.toInt) = true ∧
        step = Int64.ofInt (r.step.toInt * v.step.toInt)) :
    v.slice r = .ok ⟨v.array, offset, step, selected first last r.step.toInt⟩ := by
  unfold slice
  rw [hfirst, lift_cause_ok, ok_bind, hlast, lift_cause_ok, ok_bind]
  simp only [if_neg hcount]
  split at hstep
  · next hone =>
    rw [if_pos hone, hoffset, hstep]
    rfl
  · next hmany =>
    rw [if_neg hmany, if_pos hstep.1, hoffset, hstep.2]
    rfl

/-- **A slice between bounds of the view picks the cells from the first bound on.** -/
theorem slice_picks (hv : v.InStorage) (hsize : v.array.size < 2 ^ 63)
    (hfirst : firstBound r v.length = .ok first) (hlast : lastBound r v.length first = .ok last)
    (hlow : 1 ≤ first) (hhigh : first ≤ v.length)
    (hbound : 1 ≤ last ∧ last ≤ v.length ∨
      r.step.toInt.natAbs = 1 ∧ last = first - r.step.toInt) :
    ∃ w, v.slice r = .ok w ∧ w.length = selected first last r.step.toInt ∧
      v.Picks w first r.step.toInt := by
  have hnonzero := r.toInt_step_ne_zero
  by_cases hcount : selected first last r.step.toInt = 0
  · refine ⟨_, slice_of_selected_zero hfirst hlast hcount, hcount.symm, rfl, ?_, ?_⟩
    · intro j hj; cases hj
    · intro j hj; cases hj
  -- A last bound one step before the first one selects nothing, so it is inside the view.
  have hinside : 1 ≤ last ∧ last ≤ v.length := by
    obtain hinside | ⟨habs, hlast⟩ := hbound
    · exact hinside
    · exfalso
      apply hcount
      rw [selected_eq hnonzero, if_pos]
      unfold span
      split <;> omega
  have index (j : Nat) (hj : j < selected first last r.step.toInt) :
      0 ≤ first - 1 + j * r.step.toInt ∧ first - 1 + j * r.step.toInt < v.length := by
    have hbetween := between_of_lt_selected hnonzero hj
    omega
  have hplaces (j : Nat) (hj : j < selected first last r.step.toInt) :
      0 ≤ v.place (first - 1 + j * r.step.toInt) ∧
        v.place (first - 1 + j * r.step.toInt) < v.array.size := by
    obtain ⟨hnonneg, hlt⟩ := index j hj
    have hplace := hv (first - 1 + j * r.step.toInt).toNat (by omega)
    rwa [Int.toNat_of_nonneg hnonneg] at hplace
  have hstart : (v.cell (first - 1).toNat).toNat = v.place (first - 1) := by
    have hcell := toNat_cell hv hsize (show (first - 1).toNat < v.length by omega)
    rwa [Int.toNat_of_nonneg (by omega)] at hcell
  have hposition := position_eq hv hsize (show (first - 1).toNat < v.length by omega)
  by_cases hone : selected first last r.step.toInt = 1
  · refine ⟨_, slice_of_selected_pos hfirst hlast hcount hposition (by rw [if_pos hone]), rfl, rfl,
      index, ?_⟩
    intro j hj
    have hj : j < 1 := hone ▸ hj
    have hzero : j = 0 := by omega
    subst hzero
    simp only [ViewOf.place, Int.natCast_zero, Int.zero_mul, Int.add_zero]
    exact hstart
  · -- The composed stride is the distance of the first two cells.
    have hdistance := v.place_add (first - 1) r.step.toInt
    have h0 := hplaces 0 (by omega)
    have h1 := hplaces 1 (by omega)
    simp only [Int.natCast_zero, Int.zero_mul, Int.add_zero, Int.natCast_one, Int.one_mul] at h0 h1
    have hfits : fitsWord (r.step.toInt * v.step.toInt) = true := fitsWord_eq_true.mpr (by omega)
    have hstride : (Int64.ofInt (r.step.toInt * v.step.toInt)).toInt = r.step.toInt * v.step.toInt :=
      Int64.toInt_ofInt_of_le (by omega) (by omega)
    refine ⟨_, slice_of_selected_pos hfirst hlast hcount hposition
      (by rw [if_neg hone]; exact ⟨hfits, rfl⟩), rfl, rfl, index, ?_⟩
    intro j hj
    rw [place_add, ← hstart]
    simp only [ViewOf.place, hstride, Int.mul_assoc]

end

end ViewOf

/-! ## Enumerations of integers -/

namespace IntSteps

/-- At most `limit` elements of an enumeration, in order. -/
def take : (limit : Nat) → IntSteps → List Int64
  | 0, _ => []
  | limit + 1, it =>
    match it.next? with
    | none => []
    | some (n, rest) => n :: take limit rest

/-- **The elements of an enumeration**, in order. -/
def toList (it : IntSteps) : List Int64 := it.take it.remaining

/-- They are what the enumeration of a range as a sequence goes through. -/
theorem toList_ints (it : IntSteps) :
    (Elements.ints it).toList = it.toList.map fun n => .ok (.int n) := by
  have taken (limit : Nat) (it : IntSteps) :
      (Elements.ints it).take limit = (it.take limit).map fun n => .ok (.int n) := by
    induction limit generalizing it with
    | zero => rfl
    | succ limit ih =>
      cases hnext : it.next? with
      | none => simp only [Elements.take, Elements.next?, hnext, take, Option.map_none, List.map_nil]
      | some p =>
        simp only [Elements.take, Elements.next?, hnext, take, Option.map_some, List.map_cons, ih]
  exact taken it.remaining it

/-- While all elements fit a word, the progression is exact. -/
theorem take_eq (step : Int64) (count : Nat) (next : Int64)
    (hfits : ∀ j : Nat, j < count → fitsWord (next.toInt + j * step.toInt) = true) :
    take count ⟨next, step, count⟩ =
      (List.range count).map fun j => Int64.ofInt (next.toInt + (j : Nat) * step.toInt) := by
  induction count generalizing next with
  | zero => rfl
  | succ count ih =>
    have hhead : Int64.ofInt (next.toInt + ((0 : Nat) : Int) * step.toInt) = next := by
      simp
    rw [List.range_succ_eq_map, List.map_cons, List.map_map, hhead]
    cases count with
    | zero => rfl
    | succ count =>
      have hone := fitsWord_eq_true.mp (hfits 1 (by omega))
      have hnext : (next + step).toInt = next.toInt + step.toInt := by
        rw [Int64.toInt_add]
        exact Int.bmod_eq_of_le (by omega) (by omega)
      have shift (j : Nat) : next.toInt + ((j + 1 : Nat) : Int) * step.toInt =
          (next + step).toInt + j * step.toInt := by
        rw [hnext, Int.natCast_add, Int.add_mul]
        omega
      have rest := ih (next + step) (fun j hj => by
        rw [← shift]
        exact hfits (j + 1) (by omega))
      show next :: take (count + 1) ⟨next + step, step, count + 1⟩ = _
      rw [rest]
      congr 1
      apply List.map_congr_left
      intro j _
      exact congrArg Int64.ofInt (shift j).symm

end IntSteps

/-- **A range counts what a slicer selects.** -/
theorem IntRange.countBetween_eq {first last step : Int64} (hstep : step.toInt ≠ 0)
    (hcount : ViewOf.selected first.toInt last.toInt step.toInt ≤ maxCount) :
    IntRange.countBetween first last step =
      .ok (ViewOf.selected first.toInt last.toInt step.toInt) := by
  rw [ViewOf.selected_eq hstep] at hcount ⊢
  unfold IntRange.countBetween
  show (if ViewOf.span first.toInt last.toInt step.toInt < 0 then _ else _) = _
  split
  · rfl
  · next hspan =>
    rw [if_neg hspan] at hcount
    exact if_pos hcount

/-- Between bounds around the elements of a view, a closed range enumerates the indices that a
slicer selects. -/
theorem IntRange.steps_eq {c : IntRange} {first last : Int64} (hfirst : c.first = some first)
    (hlast : c.last = some last)
    (hcount : ViewOf.selected first.toInt last.toInt c.step.toInt ≤ maxCount) :
    c.steps = .ok ⟨first, c.step, ViewOf.selected first.toInt last.toInt c.step.toInt⟩ := by
  have hbounds : c.bounds = .ok (first, last) := by
    unfold IntRange.bounds
    rw [hfirst, hlast]
  unfold IntRange.steps
  rw [hbounds, ok_bind]
  show (IntRange.countBetween first last c.step >>= _) = _
  rw [IntRange.countBetween_eq c.toInt_step_ne_zero hcount]
  rfl

/-! ## Slicing and enumeration -/

namespace ViewOf

variable {v w : View} {r : IntRange}

/-- The elements of a view are those of the other at the picked indices. -/
theorem Picks.get {first step : Int} (h : v.Picks w first step) (hv : v.InStorage)
    (hsize : v.array.size < 2 ^ 63) {j : Nat} (hj : j < w.length) {i k : Int64}
    (hi : i.toInt = j + 1) (hk : k.toInt = first + j * step) : w.get i = v.get k := by
  obtain ⟨hlow, hhigh⟩ := h.inside j hj
  have hw := h.inStorage hv
  rw [get_eq hw (by rw [h.array]; exact hsize) hi hj, h.cell hj, h.array]
  exact (get_eq hv hsize (by omega) (by omega)).symm

/-- A slicer over a view in storage selects no more than can be counted. -/
theorem selected_le_length {first last step : Int} (hstep : step ≠ 0) (hlow : 1 ≤ first)
    {n : Nat} (hhigh : first ≤ n) (hbound : 1 ≤ last ∧ last ≤ n ∨
      step.natAbs = 1 ∧ last = first - step) : selected first last step ≤ n := by
  rw [selected_eq hstep]
  split
  · omega
  · next hspan =>
    have hdiv := Nat.div_le_self (span first last step).toNat step.natAbs
    unfold span at *
    split at hspan <;> omega

/-- A view that moves shows no more cells than its array has. -/
theorem length_le_size (hv : v.InStorage) (hstep : v.step ≠ 0) : v.length ≤ v.array.size := by
  by_cases hempty : v.length = 0
  · omega
  have hnonzero : v.step.toInt ≠ 0 := fun h => hstep (Int64.toInt_inj.mp h)
  have hfirst := hv 0 (by omega)
  have hlast := hv (v.length - 1) (by omega)
  have hdistance := v.place_add 0 ((v.length - 1 : Nat) : Int)
  rw [Int.zero_add] at hdistance
  have hfar : v.length - 1 ≤ (((v.length - 1 : Nat) : Int) * v.step.toInt).natAbs := by
    rw [Int.natAbs_mul, Int.natAbs_natCast]
    exact Nat.le_mul_of_pos_right _ (by omega)
  simp only [Int.natCast_zero] at hfirst
  omega

/-- The elements of a slice are those at the elements of the closed range. -/
theorem Picks.enumerates {first last : Int64} {c : IntRange} (hfirst : c.first = some first)
    (hlast : c.last = some last)
    (hcount : w.length = selected first.toInt last.toInt c.step.toInt)
    (hlow : 1 ≤ first.toInt) (hbound : 1 ≤ last.toInt ∨
      c.step.toInt.natAbs = 1 ∧ last.toInt = first.toInt - c.step.toInt)
    (h : v.Picks w first.toInt c.step.toInt) (hv : v.InStorage) (hsize : v.array.size < 2 ^ 63) :
    ∃ it, c.steps = .ok it ∧ w.entries = it.toList.map v.get ∧
      ∀ (k : Nat) (i : Int64), it.toList[k]? = some i →
        ∀ j : Int64, j.toInt = k + 1 → w.get j = v.get i := by
  have hstep := c.toInt_step_ne_zero
  have hfirstWord := first.toInt_lt
  have hlastWord := last.toInt_lt
  have hselected : selected first.toInt last.toInt c.step.toInt ≤ 2 ^ 63 :=
    selected_le_length hstep hlow (by omega) (by omega)
  have hsteps := IntRange.steps_eq hfirst hlast (by unfold maxCount; omega)
  have hfits (j : Nat) (hj : j < w.length) :
      -2 ^ 63 ≤ first.toInt + j * c.step.toInt ∧ first.toInt + j * c.step.toInt < 2 ^ 63 :=
    fits_of_lt_selected hstep (hcount ▸ hj)
  have hlist : IntSteps.toList ⟨first, c.step, w.length⟩ =
      (List.range w.length).map fun j => Int64.ofInt (first.toInt + (j : Nat) * c.step.toInt) :=
    IntSteps.take_eq c.step w.length first fun j hj => fitsWord_eq_true.mpr (hfits j hj)
  have hindex (j : Nat) (hj : j < w.length) :
      (Int64.ofInt (first.toInt + j * c.step.toInt)).toInt = first.toInt + j * c.step.toInt :=
    Int64.toInt_ofInt_of_le (hfits j hj).1 (hfits j hj).2
  rw [← hcount] at hsteps
  refine ⟨_, hsteps, ?_, ?_⟩
  · have hw := h.inStorage hv
    rw [entries_eq hw (by rw [h.array]; exact hsize), hlist, List.map_map]
    apply List.map_congr_left
    intro j hj
    have hj := List.mem_range.mp hj
    obtain ⟨hnonneg, hlt⟩ := h.inside j hj
    have hget := get_eq (k := (first.toInt - 1 + j * c.step.toInt).toNat) hv hsize
      (i := Int64.ofInt (first.toInt + j * c.step.toInt)) (by rw [hindex j hj]; omega) (by omega)
    show w.array.storage.read (w.cell j) = v.get _
    rw [hget, h.array, h.cell hj]
  · intro k i hi j hj
    rw [hlist, List.getElem?_map, Option.map_eq_some_iff] at hi
    obtain ⟨m, hm, rfl⟩ := hi
    obtain ⟨hk, hm⟩ := List.getElem?_eq_some_iff.mp hm
    rw [List.getElem_range] at hm
    rw [List.length_range] at hk
    subst hm
    exact h.get hv hsize hk hj (hindex _ hk)

/-! The three ways that slicing ends. -/

theorem slice_of_firstOutside (hlength : 0 < v.length) (h : r.FirstOutside v.length) :
    ∃ b, r.first = some b ∧ v.slice r = .error (.raised (.invalidSlice b v.length)) := by
  obtain ⟨b, hb, hout⟩ := h
  refine ⟨b, hb, ?_⟩
  unfold slice
  rw [firstBound_of_outside hlength hb hout]
  rfl

theorem slice_of_lastOutside (hlength : 0 < v.length) (hfirst : ¬ r.FirstOutside v.length)
    (h : r.LastOutside v.length) :
    ∃ b, r.last = some b ∧ ¬ (1 ≤ b.toInt ∧ b.toInt ≤ v.length) ∧
      v.slice r = .error (.raised (.invalidSlice b v.length)) := by
  obtain ⟨b, hb, hout, hnot⟩ := h
  refine ⟨b, hb, hout, ?_⟩
  unfold slice
  rw [firstBound_of_inside hlength hfirst, lift_cause_ok, ok_bind,
    lastBound_of_outside hb hout hnot]
  rfl

theorem slice_of_inside (hv : v.InStorage) (hlength : 0 < v.length)
    (hsize : v.array.size < 2 ^ 63) (hfirst : ¬ r.FirstOutside v.length)
    (hlast : ¬ r.LastOutside v.length) :
    ∃ w, v.slice r = .ok w ∧
      w.length = selected (r.firstOver v.length) (r.lastOver v.length) r.step.toInt ∧
      v.Picks w (r.firstOver v.length) r.step.toInt :=
  slice_picks hv hsize (firstBound_of_inside hlength hfirst) (lastBound_of_inside hlength hlast)
    (IntRange.firstOver_bounds hlength hfirst).1 (IntRange.firstOver_bounds hlength hfirst).2
    (IntRange.lastOver_bounds hlength hlast)

/-- **Slicing agrees with enumeration.** Let a view with elements be in storage, over an array that
memory can hold. Slicing fails at the first bound exactly if it is given and outside the view, and
else at the last bound exactly if that is given, outside the view, and not one unit step before the
first. Otherwise there is a slice: over the same array, in storage, with the elements of the view at
the elements of the closed range, in order, and so has every later slice of it. -/
theorem slice_enumerates (v : View) (r : IntRange) (hv : v.InStorage) (hlength : 0 < v.length)
    (hsize : v.array.size < 2 ^ 63) :
    ((∃ b : Int64, b.toInt = r.firstOver v.length ∧
        v.slice r = .error (.raised (.invalidSlice b v.length))) ↔ r.FirstOutside v.length) ∧
    (¬ r.FirstOutside v.length →
      ((∃ b : Int64, b.toInt = r.lastOver v.length ∧
        v.slice r = .error (.raised (.invalidSlice b v.length))) ↔ r.LastOutside v.length)) ∧
    (¬ r.FirstOutside v.length → ¬ r.LastOutside v.length →
      ∃ w, v.slice r = .ok w ∧ w.array = v.array ∧ w.InStorage ∧
        (v.step ≠ 0 ∨ v.length < 2 ^ 63 → ∃ c, r.Closed v.length c) ∧
        ∀ c, r.Closed v.length c → ∃ it, c.steps = .ok it ∧ w.entries = it.toList.map v.get ∧
          ∀ (k : Nat) (i : Int64), it.toList[k]? = some i →
            ∀ j : Int64, j.toInt = k + 1 → w.get j = v.get i) := by
  refine ⟨⟨?_, ?_⟩, fun hfirst => ⟨?_, ?_⟩, fun hfirst hlast => ?_⟩
  · rintro ⟨b, hb, hslice⟩
    apply Classical.byContradiction
    intro hfirst
    have hbounds := IntRange.firstOver_bounds hlength hfirst
    by_cases hlast : r.LastOutside v.length
    · obtain ⟨l, -, hout, herror⟩ := slice_of_lastOutside hlength hfirst hlast
      rw [herror] at hslice
      cases hslice
      omega
    · obtain ⟨w, hok, -⟩ := slice_of_inside hv hlength hsize hfirst hlast
      rw [hok] at hslice
      cases hslice
  · intro hfirst
    obtain ⟨b, hb, hslice⟩ := slice_of_firstOutside hlength hfirst
    exact ⟨b, (IntRange.firstOver_of_some hb).symm, hslice⟩
  · rintro ⟨b, hb, hslice⟩
    apply Classical.byContradiction
    intro hlast
    obtain ⟨w, hok, -⟩ := slice_of_inside hv hlength hsize hfirst hlast
    rw [hok] at hslice
    cases hslice
  · intro hlast
    obtain ⟨b, hb, -, hslice⟩ := slice_of_lastOutside hlength hfirst hlast
    exact ⟨b, (IntRange.lastOver_of_some hb).symm, hslice⟩
  · obtain ⟨w, hok, hcount, hpicks⟩ := slice_of_inside hv hlength hsize hfirst hlast
    refine ⟨w, hok, hpicks.array, hpicks.inStorage hv, ?_, ?_⟩
    · rintro (hstep | hshort)
      · have hle := length_le_size hv hstep
        exact r.exists_closed (by omega)
      · exact r.exists_closed hshort
    · rintro c ⟨hstep, ⟨f, hf, hfirst'⟩, l, hl, hlast'⟩
      have hlow := (IntRange.firstOver_bounds hlength hfirst).1
      have hbound := IntRange.lastOver_bounds hlength hlast
      rw [← hstep, ← hfirst', ← hlast'] at hbound
      rw [← hstep, ← hfirst'] at hpicks
      rw [← hstep, ← hfirst', ← hlast'] at hcount
      exact hpicks.enumerates hf hl hcount (by omega) (by omega) hv hsize

end ViewOf

/-- A slicer that goes forward, element by element. -/
def IntRange.forward (first last : Option Int64) : IntRange :=
  ⟨first, last, 1, by decide, by decide⟩

/-- A slicer that goes backward, element by element. -/
def IntRange.backward (first last : Option Int64) : IntRange :=
  ⟨first, last, -1, by decide, by decide⟩

namespace Alternate

/-- Every other element of five, from the last to the first. -/
def view : View := ⟨⟨0, .int, .ints #[10, 20, 30, 40, 50]⟩, 4, -2, 3⟩

/-- From the end back to the second element. -/
def slicer : IntRange := .backward none (some 2)

theorem view_inStorage : view.InStorage := by
  intro k hk
  match k with
  | 0 | 1 | 2 => decide

theorem not_firstOutside : ¬ slicer.FirstOutside view.length := by
  rintro ⟨first, hfirst, -⟩
  cases hfirst

theorem not_lastOutside : ¬ slicer.LastOutside view.length := by
  rintro ⟨last, hlast, hout, -⟩
  cases hlast
  exact hout (by decide)

end Alternate

/-- A slice of a slice, against the direction of its array. -/
theorem alternate_slice_enumerates :
    ∃ w, Alternate.view.slice Alternate.slicer = .ok w ∧ w.array = Alternate.view.array ∧
      w.InStorage ∧
      (Alternate.view.step ≠ 0 ∨ Alternate.view.length < 2 ^ 63 →
        ∃ c, Alternate.slicer.Closed 3 c) ∧
      ∀ c, Alternate.slicer.Closed 3 c → ∃ it, c.steps = .ok it ∧
        w.entries = it.toList.map Alternate.view.get ∧
        ∀ (k : Nat) (i : Int64), it.toList[k]? = some i →
          ∀ j : Int64, j.toInt = k + 1 → w.get j = Alternate.view.get i :=
  (ViewOf.slice_enumerates Alternate.view Alternate.slicer Alternate.view_inStorage (by decide)
    (by decide)).2.2 Alternate.not_firstOutside Alternate.not_lastOutside

end TypedEval
