import TypedEval.Proofs.Value.Members

/-!
# Running an enumeration

An enumeration is asked for its next element again and again. It **yields** a list (`Elements.Yields`)
when the answers are the members of the list, in order, then none for ever, and when before each of
them it tells exactly how many are to come. Every enumeration yields the list of its elements
(`Elements.yields_toList`), because each element that it gives is one less to come.
-/

namespace TypedEval.Elements

/-- The enumeration after `j` answers. One that has ended stays as it is. -/
def after : (j : Nat) → Elements → Elements
  | 0, it => it
  | j + 1, it =>
    match it.next? with
    | none => it
    | some (_, rest) => rest.after j

/-- **An enumeration yields a list.** -/
structure Yields (it : Elements) (xs : List (Except Fault Value)) : Prop where
  next : ∀ (j : Nat) (x : Except Fault Value), xs[j]? = some x →
    (it.after j).next? = some (x, it.after (j + 1))
  ended : ∀ j : Nat, xs.length ≤ j → (it.after j).next? = none
  sizeHint : ∀ j : Nat, (it.after j).sizeHint = (xs.length - j, some (xs.length - j))

variable {it rest : Elements} {v : Except Fault Value}

theorem after_succ (h : it.next? = some (v, rest)) (j : Nat) : it.after (j + 1) = rest.after j := by
  simp only [after, h]

theorem after_of_ended (h : it.next? = none) (j : Nat) : it.after j = it := by
  cases j with
  | zero => rfl
  | succ j => simp only [after, h]

theorem toList_of_next (h : it.next? = some (v, rest)) : it.toList = v :: rest.toList := by
  obtain ⟨-, hended⟩ | ⟨w, more, hnext, hremaining⟩ := it.next?_cases
  · rw [hended] at h
    cases h
  · rw [hnext] at h
    cases h
    simp only [toList, hremaining, take, hnext]

/-- Each answer is one less to come. -/
theorem remaining_after (it : Elements) (j : Nat) : (it.after j).remaining = it.remaining - j := by
  induction j generalizing it with
  | zero => rfl
  | succ j ih =>
    obtain ⟨hzero, hended⟩ | ⟨w, rest, hnext, hremaining⟩ := it.next?_cases
    · rw [after_of_ended hended]
      omega
    · rw [after_succ hnext, ih]
      omega

/-- The answers are the elements, in order. -/
theorem next?_after (it : Elements) (j : Nat) {x : Except Fault Value} (h : it.toList[j]? = some x) :
    (it.after j).next? = some (x, it.after (j + 1)) := by
  induction j generalizing it with
  | zero =>
    obtain ⟨hzero, -⟩ | ⟨w, rest, hnext, -⟩ := it.next?_cases
    · simp only [toList, hzero, take] at h
      cases h
    · rw [toList_of_next hnext] at h
      cases h
      rw [after_succ hnext]
      exact hnext
  | succ j ih =>
    obtain ⟨hzero, -⟩ | ⟨w, rest, hnext, -⟩ := it.next?_cases
    · simp only [toList, hzero, take] at h
      cases h
    · rw [toList_of_next hnext] at h
      rw [after_succ hnext, after_succ hnext]
      exact ih rest h

/-- **Every enumeration yields its elements.** -/
theorem yields_toList (it : Elements) : it.Yields it.toList := by
  refine ⟨fun j x hx => it.next?_after j hx, fun j hj => ?_, fun j => ?_⟩
  · obtain ⟨-, hended⟩ | ⟨w, rest, -, hremaining⟩ := (it.after j).next?_cases
    · exact hended
    · rw [remaining_after, ← it.length_toList] at hremaining
      omega
  · simp only [sizeHint, remaining_after, length_toList]

end TypedEval.Elements
