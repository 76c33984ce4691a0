import TypedEval.Proofs.View.Slicing
import TypedEval.Value.Equality
import TypedEval.Value.Text

/-!
# Chains of slices

A whole array is sliced, the slice is sliced, and so on. A cut is **safe** when its slice has no
more elements than the view it was cut from, reads its elements only from positions of the array,
and shows nothing that the view did not show. One kind of cut is not safe: a slicer that starts at
the first element, has no last bound and goes backward gets one element out of an empty view
(`Cut.Reopens`). The law (`ViewOf.cuts_safe_iff`): the cuts of a chain are all safe exactly when
none of them is of that kind.
-/

namespace TypedEval

/-! ## What a view shows -/

/-- Compares values pair by pair, up to the first pair that differs. -/
def equalAll : List Value → List Value → Except Fault Bool
  | x :: xs, y :: ys => do if ← x.equal y then equalAll xs ys else return false
  | _, _ => .ok true

/-- **A view shows values**: indexing, enumeration, copies, texts and comparisons all read these and
nothing else. -/
structure ViewOf.Shows (v : View) (xs : List Value) : Prop where
  length : xs.length = v.length
  get : ∀ (k : Nat) (x : Value), xs[k]? = some x → ∀ i : Int64, i.toInt = k + 1 → v.get i = .ok x
  entries : v.elements.toList = xs.map .ok
  copy : ∀ id, v.copy id = do return (← (Builder.new v.element).pushAll xs).finish id
  text : (Value.slice v).text = do return bracketed (← xs.mapM Value.text)
  equal : ∀ (w : View) (ys : List Value), w.entries = ys.map .ok →
    (Value.slice v).equal (.slice w) =
      if v.element = w.element ∧ v.length = w.length then equalAll xs ys else .ok false

theorem Elements.fill_eq_pushAll (limit : Nat) {it : Elements} {xs : List Value}
    (h : it.take limit = xs.map .ok) (b : Builder) : it.fill limit b = b.pushAll xs := by
  induction limit generalizing it xs b with
  | zero =>
    rw [Elements.take] at h
    cases xs with
    | nil => rfl
    | cons x xs => cases h
  | succ limit ih =>
    unfold Elements.take at h
    unfold Elements.fill
    cases hnext : it.next? with
    | none =>
      rw [hnext] at h
      cases xs with
      | nil => rfl
      | cons x xs => cases h
    | some p =>
      rw [hnext] at h
      cases xs with
      | nil => cases h
      | cons x xs =>
        obtain ⟨hhead, htail⟩ := List.cons.inj h
        simp only [hhead, ok_bind, Builder.pushAll]
        cases b.push x with
        | error e => rfl
        | ok c => exact ih htail c

theorem mapM_read_text {read : UInt64 → Except Fault Value} (ps : List UInt64) {xs : List Value}
    (h : ps.map read = xs.map .ok) : ps.mapM (fun p => read p >>= Value.text) = xs.mapM Value.text := by
  induction ps generalizing xs with
  | nil =>
    cases xs with
    | nil => rfl
    | cons x xs => cases h
  | cons p ps ih =>
    cases xs with
    | nil => cases h
    | cons x xs =>
      obtain ⟨hhead, htail⟩ := List.cons.inj h
      rw [List.mapM_cons, List.mapM_cons, hhead, ok_bind, ih htail]

theorem allPaired_eq_equalAll {left right : UInt64 → Except Fault Value} (ps qs : List UInt64)
    {xs ys : List Value} (hp : ps.map left = xs.map .ok) (hq : qs.map right = ys.map .ok) :
    allPaired (fun p => (left p).map Value.equal) right ps qs = equalAll xs ys := by
  induction ps generalizing xs qs ys with
  | nil =>
    cases xs with
    | nil => rfl
    | cons x xs => cases hp
  | cons p ps ih =>
    cases xs with
    | nil => cases hp
    | cons x xs =>
      obtain ⟨hx, hxs⟩ := List.cons.inj hp
      cases qs with
      | nil =>
        cases ys with
        | nil => rfl
        | cons y ys => cases hq
      | cons q qs =>
        cases ys with
        | nil => cases hq
        | cons y ys =>
          obtain ⟨hy, hys⟩ := List.cons.inj hq
          have htest : (left p).map Value.equal = .ok x.equal := by rw [hx]; rfl
          simp only [allPaired, equalAll, htest, hy, ok_bind, ih qs hxs hys]

namespace ViewOf

variable {v w : View}

/-- Values at the positions of a view. -/
theorem exists_entries (hv : v.InStorage) (hsize : v.array.size < 2 ^ 63) :
    ∃ xs : List Value, v.entries = xs.map .ok := by
  rw [entries_eq hv hsize]
  have reads (ks : List Nat) (hks : ∀ k ∈ ks, k < v.length) :
      ∃ xs : List Value, ks.map (fun k => v.array.storage.read (v.cell k)) = xs.map .ok := by
    induction ks with
    | nil => exact ⟨[], rfl⟩
    | cons k ks ih =>
      obtain ⟨xs, hxs⟩ := ih fun j hj => hks j (List.mem_cons_of_mem k hj)
      obtain ⟨x, hx⟩ := Storage.read_of_lt (cell_lt_size hv hsize (hks k List.mem_cons_self))
      exact ⟨x :: xs, by rw [List.map_cons, List.map_cons, hx, hxs]⟩
  exact reads _ fun k hk => List.mem_range.mp hk

theorem length_walk (step : Int64) (count : Nat) (next : UInt64) :
    (walk step count next).length = count := by
  induction count generalizing next with
  | zero => rfl
  | succ count ih => rw [walk, List.length_cons, ih]

theorem length_entries (v : View) : v.entries.length = v.length := by
  rw [entries, List.length_map]
  exact length_walk _ _ _

/-! What is done with a view, in terms of its entries. -/

section Entries

variable {xs : List Value} (hxs : v.entries = xs.map .ok)

include hxs

theorem get_of_entries (hv : v.InStorage) (hsize : v.array.size < 2 ^ 63) {k : Nat} {x : Value}
    (hx : xs[k]? = some x) {i : Int64} (hi : i.toInt = k + 1) : v.get i = .ok x := by
  have hentry : v.entries[k]? = some (.ok x) := by
    rw [hxs, List.getElem?_map, hx]
    rfl
  have hk : k < v.length := v.length_entries ▸ (List.getElem?_eq_some_iff.mp hentry).1
  rw [entries_eq hv hsize, List.getElem?_map, List.getElem?_range hk] at hentry
  rw [get_eq hv hsize hi hk]
  exact Option.some.inj hentry

theorem copy_of_entries (id : Nat) :
    v.copy id = do return (← (Builder.new v.element).pushAll xs).finish id := by
  have htake : v.elements.take v.length = xs.map .ok := by
    rw [← hxs, ← toList_elements]
    rfl
  unfold copy
  rw [Elements.fill_eq_pushAll v.length htake]

theorem equal_of_entries {ys : List Value} (hys : w.entries = ys.map .ok) :
    (Value.slice v).equal (.slice w) =
      if v.element = w.element ∧ v.length = w.length then equalAll xs ys else .ok false := by
  rw [Value.equal_slice]
  unfold equalCells
  have hview : (Value.slice w).expectView = .ok w := rfl
  rw [hview]
  simp only
  rw [allPaired_eq_equalAll v.positions w.positions hxs hys]

end Entries

/-- **A view in storage shows its elements.** -/
theorem InStorage.shows (hv : v.InStorage) (hsize : v.array.size < 2 ^ 63) :
    ∃ xs, v.Shows xs := by
  obtain ⟨xs, hxs⟩ := exists_entries hv hsize
  have hlength : xs.length = v.length := by
    rw [← v.length_entries, hxs, List.length_map]
  refine ⟨xs, hlength, fun k x hx i hi => get_of_entries hxs hv hsize hx hi,
    by rw [toList_elements, hxs], copy_of_entries hxs, ?_,
    fun w ys hys => equal_of_entries hxs hys⟩
  rw [Value.text_slice, mapM_read_text v.positions hxs]

end ViewOf

/-! ## Cuts -/

/-- **One slice of a chain**: what was sliced, by what, and the slice. -/
structure Cut where
  source : View
  slicer : IntRange
  result : View

/-- The cuts of a chain of slicers, if every slice of it succeeds. -/
def ViewOf.cuts (v : View) : List IntRange → Except Fault (List Cut)
  | [] => .ok []
  | r :: rs => do
    let w ← v.slice r
    return ⟨v, r, w⟩ :: (← w.cuts rs)

namespace Cut

/-- **A safe cut**: no more elements than before, each at a position of the array, and none that was
not shown before. -/
structure Safe (c : Cut) : Prop where
  length_le : c.result.length ≤ c.source.length
  located : ∀ i : Int64, 1 ≤ i.toInt → i.toInt ≤ c.result.length →
    ∃ p, c.result.locate i = .ok p ∧ p.toNat < c.result.array.size
  walked : ∀ p ∈ c.result.positions, p.toNat < c.result.array.size
  shows : ∃ xs, c.result.Shows xs
  among : ∀ e ∈ c.result.entries, e ∈ c.source.entries

/-- **A cut that reopens an empty view**: from its first element, with no last bound, backward. -/
def Reopens (c : Cut) : Prop :=
  c.source.length = 0 ∧ c.slicer.first = some 1 ∧ c.slicer.last = none ∧ c.slicer.step.toInt < 0

end Cut

namespace ViewOf

variable {v w : View} {r : IntRange}

/-- What a slice that succeeded says: its bounds were admitted, and it has as many elements as they
select. -/
theorem slice_eq_ok (h : v.slice r = .ok w) :
    ∃ first last, firstBound r v.length = .ok first ∧ lastBound r v.length first = .ok last ∧
      w.length = selected first last r.step.toInt ∧ w.array = v.array := by
  obtain ⟨first, hfirst, h⟩ := bind_eq_ok.mp h
  obtain ⟨last, hlast, h⟩ := bind_eq_ok.mp h
  refine ⟨first, last, lift_cause_eq_ok.mp hfirst, lift_cause_eq_ok.mp hlast, ?_⟩
  simp only at h
  split at h
  · next hcount => cases h; exact ⟨hcount.symm, rfl⟩
  · split at h
    · obtain ⟨_, _, h⟩ := bind_eq_ok.mp h
      obtain ⟨_, _, h⟩ := bind_eq_ok.mp h
      cases h
      exact ⟨rfl, rfl⟩
    · split at h
      · obtain ⟨_, _, h⟩ := bind_eq_ok.mp h
        obtain ⟨_, _, h⟩ := bind_eq_ok.mp h
        cases h
        exact ⟨rfl, rfl⟩
      · cases h

/-! Over an empty view, the one first bound that may be given is `1`, and a last bound that may be
given is one unit step before the first. -/

theorem firstBound_empty {first : Int} (h : firstBound r 0 = .ok first) :
    r.first = some 1 ∧ first = 1 ∨ r.first = none ∧ first = if 0 < r.step.toInt then 1 else 0 := by
  unfold firstBound at h
  cases hf : r.first with
  | none =>
    rw [hf] at h
    cases h
    exact .inr ⟨rfl, rfl⟩
  | some f =>
    rw [hf] at h
    simp only at h
    split at h
    · cases h
    · next hinside =>
      cases h
      have hone : f.toInt = 1 := by omega
      have hsame : f = 1 := Int64.toInt_inj.mp hone
      exact .inl ⟨by rw [hsame], hone⟩

theorem lastBound_empty {first last : Int} (h : lastBound r 0 first = .ok last) :
    r.last = none ∧ last = (if 0 < r.step.toInt then 0 else 1) ∨
      r.last ≠ none ∧ r.step.toInt.natAbs = 1 ∧ last = first - r.step.toInt := by
  unfold lastBound at h
  cases hl : r.last with
  | none =>
    rw [hl] at h
    cases h
    exact .inl ⟨rfl, rfl⟩
  | some l =>
    rw [hl] at h
    simp only at h
    split at h
    · cases h
    · next hinside =>
      cases h
      refine .inr ⟨Option.some_ne_none l, ?_⟩
      apply Classical.byContradiction
      intro hnot
      exact hinside ⟨hnot, by omega⟩

/-- **A slice of an empty view is empty, unless the cut reopens it.** Then it has one element. -/
theorem slice_of_empty (hempty : v.length = 0) (h : v.slice r = .ok w) :
    (Cut.Reopens ⟨v, r, w⟩ → w.length = 1) ∧ (¬ Cut.Reopens ⟨v, r, w⟩ → w.length = 0) := by
  obtain ⟨first, last, hfirst, hlast, hcount, -⟩ := slice_eq_ok h
  rw [hcount, selected_eq r.toInt_step_ne_zero]
  rw [hempty] at hfirst hlast
  have hfirst := firstBound_empty hfirst
  have hlast := lastBound_empty hlast
  constructor
  · rintro ⟨-, hf, hl, hneg⟩
    obtain ⟨-, rfl⟩ | ⟨hnone, -⟩ := hfirst
    · obtain ⟨-, rfl⟩ | ⟨hsome, -⟩ := hlast
      · simp [span, Int.not_lt.mpr (Int.le_of_lt hneg)]
      · exact absurd hl hsome
    · rw [hnone] at hf
      cases hf
  · intro hnot
    rw [if_pos]
    unfold span
    by_cases hpos : 0 < r.step.toInt
    · rw [if_pos hpos] at hfirst hlast ⊢
      omega
    · rw [if_neg hpos] at hfirst hlast ⊢
      have hneg : r.step.toInt < 0 := by have := r.toInt_step_ne_zero; omega
      -- Backward from the first element the last bound is given: else the cut would reopen.
      obtain ⟨hf, rfl⟩ | ⟨-, rfl⟩ := hfirst
      · obtain ⟨hl, -⟩ | ⟨-, habs, rfl⟩ := hlast
        · exact absurd ⟨hempty, hf, hl, hneg⟩ hnot
        · omega
      · omega

/-- Picked cells show nothing new. -/
theorem Picks.mem_entries {first step : Int} (h : v.Picks w first step) (hv : v.InStorage)
    (hsize : v.array.size < 2 ^ 63) {e : Except Fault Value} (he : e ∈ w.entries) :
    e ∈ v.entries := by
  rw [entries_eq (h.inStorage hv) (by rw [h.array]; exact hsize), List.mem_map] at he
  obtain ⟨j, hj, rfl⟩ := he
  have hj := List.mem_range.mp hj
  obtain ⟨hlow, hhigh⟩ := h.inside j hj
  rw [entries_eq hv hsize, List.mem_map]
  refine ⟨(first - 1 + j * step).toNat, List.mem_range.mpr (by omega), ?_⟩
  rw [h.cell hj, h.array]

/-- A slice with elements in front of it picks some of them. -/
theorem picks_of_slice_eq_ok (hv : v.InStorage) (hpos : 0 < v.length)
    (hsize : v.array.size < 2 ^ 63) (h : v.slice r = .ok w) :
    w.length ≤ v.length ∧ v.Picks w (r.firstOver v.length) r.step.toInt := by
  have hfirst : ¬ r.FirstOutside v.length := by
    intro hout
    obtain ⟨b, -, herror⟩ := slice_of_firstOutside hpos hout
    rw [herror] at h
    cases h
  have hlast : ¬ r.LastOutside v.length := by
    intro hout
    obtain ⟨b, -, -, herror⟩ := slice_of_lastOutside hpos hfirst hout
    rw [herror] at h
    cases h
  obtain ⟨u, hu, hlength, hpicks⟩ := slice_of_inside hv hpos hsize hfirst hlast
  rw [hu] at h
  cases h
  have hbounds := IntRange.firstOver_bounds hpos hfirst
  have hle := selected_le_length r.toInt_step_ne_zero hbounds.1 hbounds.2
    (IntRange.lastOver_bounds hpos hlast)
  exact ⟨by omega, hpicks⟩

end ViewOf

/-- A cut to a view in storage is safe if the view is no longer and shows nothing new. -/
theorem Cut.safe_of_inStorage {c : Cut} (hc : c.result.InStorage)
    (hsize : c.result.array.size < 2 ^ 63) (hle : c.result.length ≤ c.source.length)
    (among : ∀ e ∈ c.result.entries, e ∈ c.source.entries) : c.Safe := by
  refine ⟨hle, ?_, ?_, hc.shows hsize, among⟩
  · intro i hlow hhigh
    have hk : i.toInt.toNat - 1 < c.result.length := by omega
    exact ⟨_, ViewOf.locate_eq hc hsize (by omega) hk, ViewOf.cell_lt_size hc hsize hk⟩
  · intro p hp
    rw [ViewOf.positions_eq hc hsize, List.mem_map] at hp
    obtain ⟨k, hk, rfl⟩ := hp
    exact ViewOf.cell_lt_size hc hsize (List.mem_range.mp hk)

namespace ViewOf

variable {v w : View} {r : IntRange}

/-- **One cut**: of a view in storage, and not reopening it, it is safe and stays in storage. -/
theorem slice_safe (hv : v.InStorage) (hsize : v.array.size < 2 ^ 63) (h : v.slice r = .ok w)
    (hnot : ¬ Cut.Reopens ⟨v, r, w⟩) :
    Cut.Safe ⟨v, r, w⟩ ∧ w.InStorage ∧ w.array = v.array := by
  obtain ⟨first, last, -, -, -, harray⟩ := slice_eq_ok h
  have hsize' : w.array.size < 2 ^ 63 := by rw [harray]; exact hsize
  by_cases hempty : v.length = 0
  · have hlength := (slice_of_empty hempty h).2 hnot
    have hw : w.InStorage := by
      intro k hk
      omega
    have hentries : w.entries = [] := by
      rw [entries_eq hw hsize', hlength]
      rfl
    refine ⟨Cut.safe_of_inStorage hw hsize' ?_ ?_, hw, harray⟩
    · show w.length ≤ v.length
      omega
    · intro e he
      rw [hentries] at he
      cases he
  · obtain ⟨hle, hpicks⟩ := picks_of_slice_eq_ok hv (by omega) hsize h
    have hw := hpicks.inStorage hv
    exact ⟨Cut.safe_of_inStorage hw hsize' hle fun e he => hpicks.mem_entries hv hsize he, hw,
      harray⟩

/-! ## Chains -/

theorem cuts_cons_eq_ok {rs : List IntRange} {cs : List Cut} (h : v.cuts (r :: rs) = .ok cs) :
    ∃ w ds, v.slice r = .ok w ∧ w.cuts rs = .ok ds ∧ cs = ⟨v, r, w⟩ :: ds := by
  obtain ⟨w, hw, h⟩ := bind_eq_ok.mp h
  obtain ⟨ds, hds, h⟩ := bind_eq_ok.mp h
  cases h
  exact ⟨w, ds, hw, hds, rfl⟩

/-- A chain from a view in storage that reopens nothing is safe, cut by cut. -/
theorem cuts_safe (rs : List IntRange) {cs : List Cut} (hv : v.InStorage)
    (hsize : v.array.size < 2 ^ 63) (h : v.cuts rs = .ok cs) (hnot : ∀ c ∈ cs, ¬ c.Reopens) :
    ∀ c ∈ cs, c.Safe := by
  induction rs generalizing v cs with
  | nil => cases h; exact fun c hc => (nomatch hc)
  | cons r rs ih =>
    obtain ⟨w, ds, hw, hds, rfl⟩ := cuts_cons_eq_ok h
    obtain ⟨hhead, htail⟩ := List.forall_mem_cons.mp hnot
    obtain ⟨hsafe, hstorage, harray⟩ := slice_safe hv hsize hw hhead
    exact List.forall_mem_cons.mpr ⟨hsafe, ih hstorage (by rw [harray]; exact hsize) hds htail⟩

/-- A cut that reopens an empty view is not safe: it has more elements than the view. -/
theorem cuts_reopen_unsafe (rs : List IntRange) {cs : List Cut} (h : v.cuts rs = .ok cs) {c : Cut}
    (hc : c ∈ cs) (hreopens : c.Reopens) : ¬ c.Safe := by
  induction rs generalizing v cs with
  | nil => cases h; cases hc
  | cons r rs ih =>
    obtain ⟨w, ds, hw, hds, rfl⟩ := cuts_cons_eq_ok h
    obtain rfl | hc := List.mem_cons.mp hc
    · intro hsafe
      have hone := (slice_of_empty hreopens.1 hw).1 hreopens
      have hempty : v.length = 0 := hreopens.1
      have hle : w.length ≤ v.length := hsafe.length_le
      omega
    · exact ih hds hc

/-- **A chain of slices is safe exactly when no cut reopens an empty view.** The chain starts with a
whole array that memory can hold, and every slice of it succeeds. -/
theorem cuts_safe_iff (a : ArrayValue) (rs : List IntRange) (cs : List Cut)
    (hsize : a.size < 2 ^ 63) (h : (whole a).cuts rs = .ok cs) :
    (∀ c ∈ cs, c.Safe) ↔ ∀ c ∈ cs, ¬ c.Reopens := by
  constructor
  · intro hsafe c hc hreopens
    exact cuts_reopen_unsafe rs h hc hreopens (hsafe c hc)
  · exact cuts_safe rs (inStorage_whole a) hsize h

end ViewOf

namespace Unwound

def array : ArrayValue := ⟨0, .int, .ints #[5, 6, 7]⟩

/-- All elements backward, without the first, none of these, and none of none. -/
def slicers : List IntRange :=
  [.backward none none, .forward (some 2) none, .forward (some 1) (some 0), .backward none none]

def cuts : List Cut :=
  [⟨⟨array, 0, 1, 3⟩, .backward none none, ⟨array, 2, -1, 3⟩⟩,
    ⟨⟨array, 2, -1, 3⟩, .forward (some 2) none, ⟨array, 1, -1, 2⟩⟩,
    ⟨⟨array, 1, -1, 2⟩, .forward (some 1) (some 0), ⟨array, 1, -1, 0⟩⟩,
    ⟨⟨array, 1, -1, 0⟩, .backward none none, ⟨array, 1, -1, 0⟩⟩]

theorem not_reopens : ∀ c ∈ cuts, ¬ c.Reopens := by
  intro c hc
  simp only [cuts, List.mem_cons, List.not_mem_nil, or_false] at hc
  obtain rfl | rfl | rfl | rfl := hc
  · exact fun h => absurd h.1 (by decide)
  · exact fun h => absurd h.1 (by decide)
  · exact fun h => absurd h.1 (by decide)
  · exact fun h => absurd h.2.1 (by decide)

end Unwound

/-- A chain that goes through an empty view, each cut of it safe. -/
theorem unwound_cuts_safe :
    (ViewOf.whole Unwound.array).cuts Unwound.slicers = .ok Unwound.cuts ∧
      ∀ c ∈ Unwound.cuts, c.Safe := by
  have hcuts : (ViewOf.whole Unwound.array).cuts Unwound.slicers = .ok Unwound.cuts := by
    with_unfolding_all rfl
  exact ⟨hcuts, (ViewOf.cuts_safe_iff Unwound.array Unwound.slicers Unwound.cuts (by decide)
    hcuts).mpr Unwound.not_reopens⟩

namespace Reopened

def array : ArrayValue := ⟨0, .int, .ints #[]⟩

/-- From the first element, backward. -/
def slicer : IntRange := .backward (some 1) none

def view : View := ⟨array, 0, 1, 1⟩

/-- **One element out of an empty array.** The slice succeeds, and reading or showing its element
leaves the storage. -/
theorem cut_unsafe :
    (ViewOf.whole array).cuts [slicer] = .ok [⟨ViewOf.whole array, slicer, view⟩] ∧
      (ViewOf.whole array).length = 0 ∧ view.length = 1 ∧
      view.get 1 = .error (.crash (.storagePosition 0 0)) ∧
      (Value.slice view).text = .error (.crash (.storagePosition 0 0)) ∧
      ¬ Cut.Safe ⟨ViewOf.whole array, slicer, view⟩ := by
  refine ⟨by with_unfolding_all rfl, rfl, rfl, by with_unfolding_all rfl,
    by with_unfolding_all rfl, ?_⟩
  intro hsafe
  exact absurd hsafe.length_le (by decide)

end Reopened

end TypedEval
