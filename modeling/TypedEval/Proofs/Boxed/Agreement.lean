import TypedEval.Closure

/-!
# Agreement of runs

Two runs **agree** from a state when the second ends as the first does: in a value, which the second
one has boxed, or in the same halt, and in the same state. Agreement composes along `>>=`, where the
second run unboxes what the first one never boxed. An invariant of the states and a postcondition of
the first run go along with it, since it is they that make two ways of an access one.
-/

namespace TypedEval

namespace Run

variable {σ α β γ δ : Type}

/-- A chain of checks is checked step by step. -/
theorem check_bind (x : Except Fault α) (f : α → Except Fault β) :
    (Run.check (x >>= f) : Run σ β) = Run.check x >>= fun a => Run.check (f a) := by
  cases x <;> rfl

/-- **Two runs agree** from a state: the second ends as the first, in the same state, with its value
boxed; the invariant is kept, and the value of the first is as it should be. -/
structure Agrees (keeps : σ → Prop) (box : α → β) (p : α → σ → Prop) (m : Run σ α) (n : Run σ β)
    (s : σ) : Prop where
  same : n s = ((m s).1.map box, (m s).2)
  keeps : keeps (m s).2
  value : ∀ a t, m s = (.ok a, t) → p a t

variable {I : σ → Prop} {box : α → β} {p : α → σ → Prop} {m : Run σ α} {n : Run σ β} {s : σ}

theorem Agrees.of_ok {a : α} {t : σ} (hm : m s = (.ok a, t)) (hn : n s = (.ok (box a), t))
    (ht : I t) (ha : p a t) : Agrees I box p m n s := by
  refine ⟨by rw [hm, hn]; rfl, by rw [hm]; exact ht, fun b u hb => ?_⟩
  rw [hm] at hb
  cases hb
  exact ha

theorem Agrees.of_halt {e : Halt} {t : σ} (hm : m s = (.error e, t)) (hn : n s = (.error e, t))
    (ht : I t) : Agrees I box p m n s := by
  refine ⟨by rw [hm, hn]; rfl, by rw [hm]; exact ht, fun b u hb => ?_⟩
  rw [hm] at hb
  cases hb

theorem Agrees.pure {a : α} {b : β} (hb : b = box a) (hs : I s) (ha : p a s) :
    Agrees I box p (Pure.pure a) (Pure.pure b) s :=
  .of_ok rfl (by rw [hb]; rfl) hs ha

/-- A halt at the same place. -/
theorem Agrees.fault {f : Fault} (hs : I s) :
    Agrees I box p (Run.fault f : Run σ α) (Run.fault f : Run σ β) s :=
  .of_halt rfl rfl hs

theorem Agrees.imp {q : α → σ → Prop} (h : Agrees I box p m n s) (k : ∀ a t, p a t → q a t) :
    Agrees I box q m n s :=
  ⟨h.same, h.keeps, fun a t ha => k a t (h.value a t ha)⟩

/-- The second run goes on with the boxed value. -/
theorem Agrees.bind {f : α → Run σ γ} {g : β → Run σ δ} {box' : γ → δ} {q : γ → σ → Prop}
    (h : Agrees I box p m n s)
    (k : ∀ a t, I t → p a t → Agrees I box' q (f a) (g (box a)) t) :
    Agrees I box' q (m >>= f) (n >>= g) s := by
  obtain ⟨same, keeps, value⟩ := h
  rcases hm : m s with ⟨r, t⟩
  rw [hm] at same keeps
  cases r with
  | error e => exact .of_halt (bind_halt hm) (bind_halt same) keeps
  | ok a =>
    have rest := k a t keeps (value a t hm)
    have first : (m >>= f) s = f a t := bind_ok hm
    have second : (n >>= g) s = g (box a) t := bind_ok same
    refine ⟨by rw [first, second]; exact rest.same, by rw [first]; exact rest.keeps, ?_⟩
    rw [first]
    exact rest.value

/-- The second run unboxes a value that the first one has unboxed. -/
theorem Agrees.unboxed {x : Except Fault γ} {c : γ} (hx : x = .ok c) {k : γ → Run σ β}
    (h : Agrees I box p m (k c) s) : Agrees I box p m (Run.check x >>= k) s := by
  subst hx
  exact h

/-- The first run unboxes a value that the second one has boxed. -/
theorem Agrees.unboxing {k : α → Except Fault γ} {box' : γ → β}
    (h : Agrees I box p m n s) (unbox : ∀ a t, p a t → ∃ c, k a = .ok c ∧ box' c = box a)
    {q : γ → σ → Prop} (hq : ∀ a t c, p a t → k a = .ok c → q c t) :
    Agrees I box' q (m >>= fun a => Run.check (k a)) n s := by
  have whole : Agrees I box' q (m >>= fun a => Run.check (k a)) (n >>= Pure.pure) s := by
    refine h.bind fun a t ht ha => ?_
    obtain ⟨c, hc, hbox⟩ := unbox a t ha
    rw [hc]
    exact .pure hbox.symm ht (hq a t c ha hc)
  rw [bind_pure] at whole
  exact whole

/-- The second run boxes the value of the first. -/
theorem Agrees.boxed {p : α → σ → Prop} (h : Agrees I id p m m s) :
    Agrees I box p m (m >>= fun a => Pure.pure (box a)) s := by
  have whole : Agrees I box p (m >>= Pure.pure) (m >>= fun a => Pure.pure (box a)) s :=
    h.bind fun a t ht ha => .pure rfl ht ha
  rw [bind_pure] at whole
  exact whole

/-- The first run boxes its value in the end. -/
theorem Agrees.boxing {q : β → σ → Prop} (h : Agrees I box p m n s)
    (hq : ∀ a t, p a t → q (box a) t) :
    Agrees I id q (m >>= fun a => Pure.pure (box a)) n s := by
  have whole : Agrees I id q (m >>= fun a => Pure.pure (box a)) (n >>= Pure.pure) s :=
    h.bind fun a t ht ha => .pure rfl ht (hq a t ha)
  rw [bind_pure] at whole
  exact whole

/-- A check on both sides that passes. -/
theorem Agrees.passed {x : Except Fault γ} {c : γ} (hx : x = .ok c) {k : γ → Run σ α}
    {l : γ → Run σ β} (h : Agrees I box p (k c) (l c) s) :
    Agrees I box p (Run.check x >>= k) (Run.check x >>= l) s := by
  subst hx
  exact h

/-- The same check on both sides. -/
theorem Agrees.check {x : Except Fault α} (hs : I s) (h : ∀ a, x = .ok a → p a s) :
    Agrees I id p (Run.check x) (Run.check x) s := by
  cases x with
  | ok a => exact .of_ok rfl rfl hs (h a rfl)
  | error f => exact .of_halt rfl rfl hs

/-- What the state says, boxed and unboxed. -/
theorem Agrees.read {f : σ → Except Fault α} {g : σ → Except Fault β}
    (hfg : g s = (f s).map box) (hs : I s) (h : ∀ a, f s = .ok a → p a s) :
    Agrees I box p (Run.read f) (Run.read g) s := by
  unfold Run.read Run.check
  cases hf : f s with
  | ok a =>
    rw [hf] at hfg
    exact .of_ok (by simp only [hf]) (by simp only [hfg]; rfl) hs (h a hf)
  | error e =>
    rw [hf] at hfg
    exact .of_halt (e := .fault e []) (by simp only [hf]) (by simp only [hfg]; rfl) hs

/-- Two updates that are one in this state. -/
theorem Agrees.update {f g : σ → Except Fault σ} {p : Unit → σ → Prop} (hfg : f s = g s) (hs : I s)
    (h : ∀ t, g s = .ok t → I t ∧ p () t) : Agrees I id p (Run.update f) (Run.update g) s := by
  unfold Run.update
  rw [← hfg] at h
  cases hf : f s with
  | ok t =>
    rw [hf] at hfg
    exact .of_ok (by simp only [hf]) (by simp only [← hfg]) (h t hf).1 (h t hf).2
  | error e =>
    rw [hf] at hfg
    exact .of_halt (e := .fault e []) (by simp only [hf]) (by simp only [← hfg]) hs

/-- Runs on a part of the state. -/
theorem Agrees.focus {τ : Type} {J : τ → Prop} {get : σ → τ} {set : σ → τ → σ} {m : Run τ α}
    {n : Run τ β} {r : α → τ → Prop} (h : Agrees J box r m n (get s))
    (whole : ∀ t, J t → I (set s t)) (value : ∀ a t, r a t → p a (set s t)) :
    Agrees I box p (Run.focus get set m) (Run.focus get set n) s := by
  obtain ⟨same, keeps, result⟩ := h
  rcases hm : m (get s) with ⟨x, t⟩
  rw [hm] at same keeps
  have first : Run.focus get set m s = (x, set s t) := by simp [Run.focus, hm]
  have second : Run.focus get set n s = (x.map box, set s t) := by simp [Run.focus, same]
  cases x with
  | ok a => exact .of_ok first second (whole t keeps) (value a t (result a t hm))
  | error e => exact .of_halt first second (whole t keeps)

/-- Halts that change alike. -/
theorem Agrees.mapHalt {f : Halt → Halt} (h : Agrees I box p m n s) :
    Agrees I box p (m.mapHalt f) (n.mapHalt f) s := by
  obtain ⟨same, keeps, value⟩ := h
  rcases hm : m s with ⟨r, t⟩
  rw [hm] at same keeps
  cases r with
  | ok a =>
    have same : n s = (.ok (box a), t) := same
    exact .of_ok (by simp [Run.mapHalt, hm]) (by simp [Run.mapHalt, same]) keeps (value a t hm)
  | error e =>
    have same : n s = (.error e, t) := same
    exact .of_halt (e := f e) (by simp [Run.mapHalt, hm]) (by simp [Run.mapHalt, same]) keeps

/-- Two writes to the frame that are one in this activation. -/
theorem Agrees.updateFrame {a : Activation} {I : Activation → Prop} {p : Unit → Activation → Prop}
    {f g : Frame → Except Fault Frame} (hfg : f a.frame = g a.frame) (ha : I a)
    (h : ∀ frame, g a.frame = .ok frame → I { a with frame } ∧ p () { a with frame }) :
    Agrees I id p (Activation.updateFrame f) (Activation.updateFrame g) a :=
  Agrees.focus (J := fun frame => I { a with frame }) (r := fun u frame => p u { a with frame })
    (Agrees.update hfg ha h) (fun _ ht => ht) (fun _ _ hr => hr)

end Run

end TypedEval
