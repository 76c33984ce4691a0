import Mathlib.Data.Set.Card
import TypedEval.Proofs.Value.Enumeration

/-!
# Integer ranges enumerate their progression

A closed range from `a` to `b` by `s` stands for the integers `a + k · s` that do not pass `b`. They
are counted here as a set of indices, in unbounded integers, without a division (`OnNearSide`). The law
(`IntRange.enumerates_progression`): the count of a range is the size of that set, and its enumeration
goes through exactly these integers, none of which leaves the words. There are never more than `2^64`
of them. That many, one more than can be counted, are there from one end of the words to the other by
single steps only.
-/

namespace TypedEval.IntRange

/-! ## Counting the progression -/

/-- The index `k` of the progression from `first` by `step` does not pass `last`. -/
def OnNearSide (first last step : Int) (k : Nat) : Prop :=
  if 0 < step then first + k * step ≤ last else last ≤ first + k * step

variable {first last step : Int}

/-- Multiples of the step are held against the distance of the bounds. -/
theorem onNearSide_iff_le_span {k : Nat} :
    OnNearSide first last step k ↔ (k : Int) * |step| ≤ ViewOf.span first last step := by
  unfold OnNearSide ViewOf.span
  split
  · next hpos =>
    rw [abs_of_pos hpos]
    omega
  · next hneg =>
    rw [abs_of_nonpos (by omega), mul_neg]
    omega

/-- **The indices on the near side are those below what is counted.** -/
theorem onNearSide_iff (hstep : step ≠ 0) {k : Nat} :
    OnNearSide first last step k ↔ k < ViewOf.selected first last step := by
  rw [onNearSide_iff_le_span, ViewOf.selected_eq hstep, Int.abs_eq_natAbs]
  split
  · next hspan =>
    have hnonneg : 0 ≤ (k : Int) * step.natAbs := Int.mul_nonneg (by omega) (by omega)
    omega
  · next hspan =>
    rw [Nat.lt_succ_iff, Nat.le_div_iff_mul_le (by omega)]
    have hcast : ((k * step.natAbs : Nat) : Int) = (k : Int) * step.natAbs := Int.natCast_mul k _
    omega

theorem encard_onNearSide (hstep : step ≠ 0) :
    {k | OnNearSide first last step k}.encard = ViewOf.selected first last step := by
  have hset : {k | OnNearSide first last step k} =
      (Finset.range (ViewOf.selected first last step) : Set Nat) := by
    ext k
    simp only [Set.mem_ofPred_eq, Finset.coe_range, Set.mem_Iio, onNearSide_iff hstep]
  rw [hset, Set.encard_coe_eq_coe_finsetCard, Finset.card_range]

/-! ## The limit of counting -/

/-- **From one end of the words to the other**, by single steps. -/
def Spans (a b s : Int64) : Prop :=
  s = 1 ∧ a = Int64.minValue ∧ b = Int64.maxValue ∨
    s = -1 ∧ a = Int64.maxValue ∧ b = Int64.minValue

theorem spans_iff {a b s : Int64} :
    Spans a b s ↔ s.toInt = 1 ∧ a.toInt = -2 ^ 63 ∧ b.toInt = 2 ^ 63 - 1 ∨
      s.toInt = -1 ∧ a.toInt = 2 ^ 63 - 1 ∧ b.toInt = -2 ^ 63 := by
  simp only [Spans, ← Int64.toInt_inj]
  exact Iff.rfl

theorem span_lt_limit (a b : Int64) (s : Int) : ViewOf.span a.toInt b.toInt s < 2 ^ 64 := by
  have hleastA := a.le_toInt
  have hmostA := a.toInt_lt
  have hleastB := b.le_toInt
  have hmostB := b.toInt_lt
  unfold ViewOf.span
  split <;> omega

/-- Between words there are at most `2^64` elements. -/
theorem selected_le_limit (a b : Int64) {s : Int64} (hs : s.toInt ≠ 0) :
    ViewOf.selected a.toInt b.toInt s.toInt ≤ 2 ^ 64 := by
  have hspan := span_lt_limit a b s.toInt
  have hdiv := Nat.div_le_self (ViewOf.span a.toInt b.toInt s.toInt).toNat s.toInt.natAbs
  rw [ViewOf.selected_eq hs]
  split <;> omega

/-- **The limit is reached from end to end by single steps, and not otherwise.** -/
theorem selected_eq_limit_iff {a b s : Int64} (hs : s.toInt ≠ 0) :
    ViewOf.selected a.toInt b.toInt s.toInt = 2 ^ 64 ↔ Spans a b s := by
  have hspan := span_lt_limit a b s.toInt
  rw [ViewOf.selected_eq hs, spans_iff]
  by_cases hone : s.toInt.natAbs = 1
  · rw [hone, Nat.div_one]
    have hleastA := a.le_toInt
    have hmostA := a.toInt_lt
    have hleastB := b.le_toInt
    have hmostB := b.toInt_lt
    unfold ViewOf.span at *
    split <;> split <;> omega
  · -- Longer steps at least halve the count.
    have hhalf : (ViewOf.span a.toInt b.toInt s.toInt).toNat / s.toInt.natAbs ≤
        (ViewOf.span a.toInt b.toInt s.toInt).toNat / 2 :=
      Nat.div_le_div_left (by omega) (by omega)
    split <;> omega

/-! ## Counting and enumerating a range -/

section

variable {r : IntRange} {a b : Int64}

theorem bounds_of_closed (ha : r.first = some a) (hb : r.last = some b) : r.bounds = .ok (a, b) := by
  unfold bounds
  rw [ha, hb]

theorem countBetween_of_spans {s : Int64} (hs : s.toInt ≠ 0) (h : Spans a b s) :
    countBetween a b s = .error
      (tooManyElements (toString a.toInt) (toString b.toInt) (toString s.toInt)) := by
  have hlimit := (selected_eq_limit_iff hs).mpr h
  rw [ViewOf.selected_eq hs] at hlimit
  unfold countBetween
  show (if ViewOf.span a.toInt b.toInt s.toInt < 0 then _ else _) = _
  split
  · next hspan =>
    rw [if_pos hspan] at hlimit
    omega
  · next hspan =>
    rw [if_neg hspan] at hlimit
    refine if_neg ?_
    show ¬ ((ViewOf.span a.toInt b.toInt s.toInt).toNat / s.toInt.natAbs + 1 ≤ maxCount)
    rw [hlimit]
    decide

/-- A range of as many elements as the limit is refused, whether to be counted or enumerated. -/
theorem refused_of_spans (ha : r.first = some a) (hb : r.last = some b) (h : Spans a b r.step) :
    ∃ message, r.count = .error (.domain "range" message) ∧
      r.steps = .error (.domain "range" message) := by
  have hcount := countBetween_of_spans r.toInt_step_ne_zero h
  unfold tooManyElements at hcount
  unfold count steps
  rw [bounds_of_closed ha hb, ok_bind, ok_bind]
  simp only [hcount]
  exact ⟨_, rfl, rfl⟩

/-- A closed range with fewer elements is counted. -/
theorem count_of_closed (ha : r.first = some a) (hb : r.last = some b) (h : ¬ Spans a b r.step) :
    r.count = .ok (ViewOf.selected a.toInt b.toInt r.step.toInt) := by
  have hle := selected_le_limit a b r.toInt_step_ne_zero
  have hne := mt (selected_eq_limit_iff r.toInt_step_ne_zero).mp h
  unfold count
  rw [bounds_of_closed ha hb, ok_bind]
  exact countBetween_eq r.toInt_step_ne_zero (by unfold maxCount; omega)

/-- **A closed range that is counted enumerates its progression**, exactly. -/
theorem steps_of_closed (ha : r.first = some a) (hb : r.last = some b) (h : ¬ Spans a b r.step) :
    ∃ (it : IntSteps) (xs : List Int64), r.steps = .ok it ∧
      (Elements.ints it).Yields (xs.map fun x => .ok (.int x)) ∧
      xs.length = ViewOf.selected a.toInt b.toInt r.step.toInt ∧
      ∀ (k : Nat) (x : Int64), xs[k]? = some x → x.toInt = a.toInt + k * r.step.toInt ∧
        min a.toInt b.toInt ≤ x.toInt ∧ x.toInt ≤ max a.toInt b.toInt := by
  have hcount := count_of_closed ha hb h
  obtain ⟨it, hit, hlist⟩ := steps_of_count hcount
  refine ⟨it, (List.range (ViewOf.selected a.toInt b.toInt r.step.toInt)).map fun k =>
    Int64.ofInt (a.toInt + (k : Nat) * r.step.toInt), hit, ?_, by simp, ?_⟩
  · have hyields := (Elements.ints it).yields_toList
    rw [hlist] at hyields
    simp only [members, ha, hcount, List.map_map] at hyields
    rw [List.map_map]
    exact hyields
  · intro k x hx
    rw [List.getElem?_map, Option.map_eq_some_iff] at hx
    obtain ⟨j, hj, rfl⟩ := hx
    obtain ⟨hlt, hj⟩ := List.getElem?_eq_some_iff.mp hj
    rw [List.getElem_range] at hj
    rw [List.length_range] at hlt
    subst hj
    obtain ⟨hleast, hmost⟩ := ViewOf.fits_of_lt_selected r.toInt_step_ne_zero hlt
    have hexact := Int64.toInt_ofInt_of_le hleast hmost
    exact ⟨hexact, by rw [hexact]; exact ViewOf.between_of_lt_selected r.toInt_step_ne_zero hlt⟩

theorem open_refused (h : r.first = none ∨ r.last = none) :
    r.count = .error (.openRange r.text) ∧ r.steps = .error (.openRange r.text) := by
  have hbounds : r.bounds = .error (.openRange r.text) := by
    unfold bounds
    obtain hnone | hnone := h
    · rw [hnone]
    · rw [hnone]
      cases r.first <;> rfl
  unfold count steps
  rw [hbounds]
  exact ⟨rfl, rfl⟩

end

/-- **Ranges enumerate their progression.** Let `n` be the number of indices `k` for which
`a + k · s` does not pass `b`. It is `2^64` exactly from one end of the words to the other by single
steps, and then the range is neither counted nor enumerated. Otherwise it has the count `n`, and its
enumeration yields the words `a`, `a + s`, `a + 2 · s` and so on, as integers and between `a` and `b`:
`n` of them, and then none for ever. An open range is neither counted nor enumerated. -/
theorem enumerates_progression (r : IntRange) :
    (∀ a b : Int64, r.first = some a → r.last = some b →
      ∃ n : Nat, {k | OnNearSide a.toInt b.toInt r.step.toInt k}.encard = n ∧
        (n = 2 ^ 64 ↔ Spans a b r.step) ∧
        (n = 2 ^ 64 → ∃ message, r.count = .error (.domain "range" message) ∧
          r.steps = .error (.domain "range" message)) ∧
        (n ≠ 2 ^ 64 → r.count = .ok n ∧
          ∃ (it : IntSteps) (xs : List Int64), r.steps = .ok it ∧
            (Elements.ints it).Yields (xs.map fun x => .ok (.int x)) ∧ xs.length = n ∧
            ∀ (k : Nat) (x : Int64), xs[k]? = some x → x.toInt = a.toInt + k * r.step.toInt ∧
              min a.toInt b.toInt ≤ x.toInt ∧ x.toInt ≤ max a.toInt b.toInt)) ∧
    (r.first = none ∨ r.last = none →
      r.count = .error (.openRange r.text) ∧ r.steps = .error (.openRange r.text)) := by
  refine ⟨fun a b ha hb => ?_, open_refused⟩
  have hlimit := selected_eq_limit_iff (a := a) (b := b) r.toInt_step_ne_zero
  refine ⟨_, encard_onNearSide r.toInt_step_ne_zero, hlimit, fun hn => ?_, fun hn => ?_⟩
  · exact refused_of_spans ha hb (hlimit.mp hn)
  · have hspans := mt hlimit.mpr hn
    exact ⟨count_of_closed ha hb hspans, steps_of_closed ha hb hspans⟩

end TypedEval.IntRange
