import TypedEval.Node.Eval
import TypedEval.Proofs.Frame

/-!
# Laws of closures and the store

The store only grows, and a closure that was added is found under the number it was given. A store
**extends** another when the closures of the first are there with the same contents.

`instantiate_cases` says all that the evaluation of a function definition can do; every law about
definitions starts from it.
-/

namespace TypedEval

namespace Function

variable {f : Function} {s : Store} {id : Nat} {frame : Frame}

theorem closureIn_of_none (h : f.closureId? = none) : f.closureIn s = .ok none := by
  unfold closureIn
  rw [h]

theorem closureIn_of_some (h : f.closureId? = some id) (hs : s.closures[id]? = some frame) :
    f.closureIn s = .ok (some (id, frame)) := by
  unfold closureIn
  rw [h]
  simp only [hs]

/-- What was looked up for a function is the closure that it names. -/
theorem closureId?_of_closureIn {r : Option (Nat × Frame)} (h : f.closureIn s = .ok r) :
    f.closureId? = r.map Prod.fst := by
  unfold closureIn at h
  split at h
  · next heq => cases h; exact heq
  · next heq =>
    split at h
    · cases h; exact heq
    · cases h

/-- The closure that was looked up is in the store, under the number that the function names. -/
theorem closure_of_closureIn (h : f.closureIn s = .ok (some (id, frame))) :
    f.closureId? = some id ∧ s.closures[id]? = some frame := by
  have named := closureId?_of_closureIn h
  refine ⟨named, ?_⟩
  unfold closureIn at h
  rw [named] at h
  simp only [Option.map_some] at h
  split at h
  · next heq => cases h; exact heq
  · cases h

end Function

namespace Store

/-- **A store extends another**: the closures of the first are there, with the same contents. -/
def Extends (s t : Store) : Prop :=
  ∀ (id : Nat) (frame : Frame), s.closures[id]? = some frame → t.closures[id]? = some frame

variable {r s t : Store}

theorem Extends.refl (s : Store) : s.Extends s := fun _ _ h => h

theorem Extends.trans (h : r.Extends s) (k : s.Extends t) : r.Extends t :=
  fun id frame hid => k id frame (h id frame hid)

theorem Extends.size_le (h : s.Extends t) : s.closures.size ≤ t.closures.size := by
  apply Nat.le_of_not_lt
  intro hlt
  have found := h _ _ (Array.getElem?_eq_getElem hlt)
  simp at found

/-- A new closure leaves the others alone. -/
theorem extends_addClosure (s : Store) (frame : Frame) : s.Extends (s.addClosure frame).2 := by
  intro id old hid
  have hlt : id < s.closures.size := (Array.getElem?_eq_some_iff.mp hid).1
  simp [addClosure, Array.getElem?_push, Nat.ne_of_lt hlt, hid]

theorem getElem?_addClosure_self (s : Store) (frame : Frame) :
    (s.addClosure frame).2.closures[s.closures.size]? = some frame := by
  simp [addClosure]

theorem getElem?_setClosure_self {id : Nat} {old : Frame} (h : s.closures[id]? = some old)
    (frame : Frame) : (s.setClosure id frame).closures[id]? = some frame := by
  simp [setClosure, Array.getElem?_modify, h]

theorem getElem?_setClosure_ne {id k : Nat} (h : id ≠ k) (s : Store) (frame : Frame) :
    (s.setClosure id frame).closures[k]? = s.closures[k]? := by
  simp [setClosure, Array.getElem?_modify, h]

/-- A write to a closure beyond those of `s` leaves the closures of `s` alone. -/
theorem Extends.setClosure (h : s.Extends t) {id : Nat} (hid : s.closures.size ≤ id)
    (frame : Frame) : s.Extends (t.setClosure id frame) := by
  intro k old hk
  have hlt : k < s.closures.size := (Array.getElem?_eq_some_iff.mp hk).1
  have hne : id ≠ k := by omega
  simp [Store.setClosure, Array.getElem?_modify, hne, h k old hk]

end Store

/-- **What a definition can do.** It captures nothing and makes no closure; or a slot cannot be
captured; or the captured slots become the next closure of the store. -/
theorem instantiate_cases (target : Target) (capture : Capture) (a : Activation) :
    (capture.transfers = [] ∧ instantiate target capture a = (.ok ⟨target, none⟩, a)) ∨
    (∃ f, capture.snapshot a.frame = .error f ∧
      instantiate target capture a = (.error (.fault f []), a)) ∨
    (∃ frame, capture.snapshot a.frame = .ok frame ∧
      instantiate target capture a =
        (.ok ⟨target, some (.shared a.store.closures.size)⟩,
          { a with store := (a.store.addClosure frame).2 })) := by
  unfold instantiate Capture.take
  by_cases hempty : capture.transfers = []
  · exact .inl ⟨hempty, by simp [hempty]⟩
  · have hne : capture.transfers.isEmpty = false := by simpa using hempty
    cases hs : capture.snapshot a.frame with
    | error f => exact .inr (.inl ⟨f, rfl, by simp [hne]⟩)
    | ok frame => exact .inr (.inr ⟨frame, rfl, by simp [hne, Store.addClosure]⟩)

end TypedEval
