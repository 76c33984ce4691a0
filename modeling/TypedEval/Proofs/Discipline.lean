import TypedEval.Closure

/-!
# Disciplines of runs

A **discipline** says what every run of a kind keeps: an invariant of the states, a relation between
the state before and the state after, and the halts that may occur. A run that ends in a value keeps
it, and so does a run that halts, since the state is there in both cases.

`Run.Obeys` is the judgment about one run from one state, with a postcondition on the value. It
composes along `>>=` (`Obeys.bind`), passes through `focus`, and a call that adds its name to a halt
changes nothing about it (`Obeys.within`). Each law about evaluation picks a discipline, proves
`Obeys` once for each operation, and gets whole evaluations by induction over the tree.
-/

namespace TypedEval

/-- A fault is no lack of depth. -/
theorem Halt.fault_ne_exhausted (f : Fault) (trace : List String) :
    Halt.fault f trace ≠ .exhausted := by
  intro h
  cases h

/-- **What every run of a kind keeps.** -/
structure Discipline (σ : Type) where
  /-- The invariant of a state. -/
  holds : σ → Prop
  /-- How the state after a run stands to the state before. -/
  leads : σ → σ → Prop
  /-- The halts that may occur. -/
  halts : Halt → Prop
  refl : ∀ s, leads s s
  trans : ∀ {r s t}, leads r s → leads s t → leads r t

namespace Run

variable {σ τ α β : Type}

/-- A run in two parts ended in a value when both parts did. -/
theorem bind_ok_iff {m : Run σ α} {f : α → Run σ β} {s t : σ} {b : β} :
    (m >>= f) s = (.ok b, t) ↔ ∃ a u, m s = (.ok a, u) ∧ f a u = (.ok b, t) := by
  rcases hm : m s with ⟨r, u⟩
  cases r with
  | ok a =>
    rw [bind_ok hm]
    exact ⟨fun h => ⟨a, u, rfl, h⟩, fun ⟨_, _, h, hf⟩ => by cases h; exact hf⟩
  | error e =>
    rw [bind_halt hm]
    exact ⟨fun h => (nomatch h), fun ⟨_, _, h, _⟩ => (nomatch h)⟩

theorem update_ok_iff {f : σ → Except Fault σ} {s t : σ} {u : Unit} :
    Run.update f s = (.ok u, t) ↔ f s = .ok t := by
  unfold Run.update
  cases f s with
  | ok r => simp
  | error e => simp

/-- **A run obeys a discipline** from a state, with a postcondition on its value. -/
structure Obeys (D : Discipline σ) (m : Run σ α) (s : σ) (p : α → σ → Prop) : Prop where
  holds : D.holds (m s).2
  leads : D.leads s (m s).2
  ends : match (m s).1 with
    | .ok a => p a (m s).2
    | .error h => D.halts h

variable {D : Discipline σ} {s : σ} {m : Run σ α} {p : α → σ → Prop}

/-- A run that ended in a value obeys when its end state and its value do. -/
theorem Obeys.of_ok {t : σ} {a : α} (h : m s = (.ok a, t)) (holds : D.holds t)
    (leads : D.leads s t) (value : p a t) : m.Obeys D s p := by
  constructor
  · rw [h]; exact holds
  · rw [h]; exact leads
  · rw [h]; exact value

/-- A run that halted obeys when its end state and its halt do. -/
theorem Obeys.of_halt {t : σ} {e : Halt} (h : m s = (.error e, t)) (holds : D.holds t)
    (leads : D.leads s t) (halts : D.halts e) : m.Obeys D s p := by
  constructor
  · rw [h]; exact holds
  · rw [h]; exact leads
  · rw [h]; exact halts

/-- What is known of a run that obeys and ended in a value. -/
theorem Obeys.ok (h : m.Obeys D s p) {t : σ} {a : α} (hm : m s = (.ok a, t)) :
    D.holds t ∧ D.leads s t ∧ p a t := by
  obtain ⟨holds, leads, ends⟩ := h
  rw [hm] at holds leads ends
  exact ⟨holds, leads, ends⟩

/-- What is known of a run that obeys and halted. -/
theorem Obeys.halt (h : m.Obeys D s p) {t : σ} {e : Halt} (hm : m s = (.error e, t)) :
    D.holds t ∧ D.leads s t ∧ D.halts e := by
  obtain ⟨holds, leads, ends⟩ := h
  rw [hm] at holds leads ends
  exact ⟨holds, leads, ends⟩

/-- A weaker postcondition. -/
theorem Obeys.imp {q : α → σ → Prop} (h : m.Obeys D s p) (k : ∀ a t, p a t → q a t) :
    m.Obeys D s q := by
  rcases hm : m s with ⟨r, t⟩
  cases r with
  | ok a =>
    obtain ⟨holds, leads, value⟩ := h.ok hm
    exact .of_ok hm holds leads (k a t value)
  | error e =>
    obtain ⟨holds, leads, halts⟩ := h.halt hm
    exact .of_halt hm holds leads halts

theorem Obeys.pure {a : α} (holds : D.holds s) (value : p a s) :
    (Pure.pure a : Run σ α).Obeys D s p :=
  ⟨holds, D.refl s, value⟩

/-- A run that is the rest of it, from a state that it leads to. -/
theorem Obeys.of_rest {n : Run σ α} {t : σ} (run : n s = m t) (leads : D.leads s t)
    (rest : m.Obeys D t p) : n.Obeys D s p := by
  constructor
  · rw [run]; exact rest.holds
  · rw [run]; exact D.trans leads rest.leads
  · rw [run]; exact rest.ends

/-- The rest of a run starts where its first part ended. -/
theorem Obeys.bind {f : α → Run σ β} {q : β → σ → Prop} (h : m.Obeys D s p)
    (k : ∀ a t, D.holds t → D.leads s t → p a t → (f a).Obeys D t q) :
    (m >>= f).Obeys D s q := by
  rcases hm : m s with ⟨r, t⟩
  cases r with
  | error e =>
    obtain ⟨holds, leads, halts⟩ := h.halt hm
    exact .of_halt (bind_halt hm) holds leads halts
  | ok a =>
    obtain ⟨holds, leads, value⟩ := h.ok hm
    exact .of_rest (bind_ok hm) leads (k a t holds leads value)

theorem Obeys.fault {f : Fault} (holds : D.holds s) (halts : D.halts (.fault f [])) :
    (Run.fault f : Run σ α).Obeys D s p :=
  ⟨holds, D.refl s, halts⟩

/-- After a first part that left the state alone, the rest is the whole. -/
theorem Obeys.bind_of_ok {a : α} (h : m s = (.ok a, s)) {f : α → Run σ β} {q : β → σ → Prop}
    (rest : (f a).Obeys D s q) : (m >>= f).Obeys D s q :=
  .of_rest (bind_ok h) (D.refl s) rest

/-- A check that passes leaves its result. -/
theorem Obeys.of_check {x : Except Fault α} {a : α} (h : x = .ok a) (holds : D.holds s)
    (value : p a s) : (Run.check x).Obeys D s p := by
  subst h
  exact .pure holds value

theorem Obeys.bind_check {x : Except Fault α} {a : α} (h : x = .ok a) {f : α → Run σ β}
    {q : β → σ → Prop} (rest : (f a).Obeys D s q) : (Run.check x >>= f).Obeys D s q :=
  .bind_of_ok (by rw [h]; rfl) rest

/-- What the state says leaves it alone. -/
theorem Obeys.read {f : σ → Except Fault α} (holds : D.holds s) (ok : ∀ a, f s = .ok a → p a s)
    (error : ∀ e, f s = .error e → D.halts (.fault e [])) : (Run.read f).Obeys D s p := by
  cases hf : f s with
  | ok a => exact .of_ok (by simp [Run.read, Run.check, hf]) holds (D.refl s) (ok a hf)
  | error e => exact .of_halt (by simp [Run.read, Run.check, hf]) holds (D.refl s) (error e hf)

theorem Obeys.bind_read {g : σ → Except Fault α} {a : α} (h : g s = .ok a) {f : α → Run σ β}
    {q : β → σ → Prop} (rest : (f a).Obeys D s q) : (Run.read g >>= f).Obeys D s q :=
  .bind_of_ok (by simp [Run.read, Run.check, h]) rest

/-- An update that passes leaves its state. -/
theorem Obeys.of_update {f : σ → Except Fault σ} {t : σ} {p : Unit → σ → Prop} (h : f s = .ok t)
    (holds : D.holds t) (leads : D.leads s t) (value : p () t) : (Run.update f).Obeys D s p :=
  .of_ok (by simp [Run.update, h]) holds leads value

/-- A run on a part of the state obeys when the part's run does and the whole follows the part. -/
theorem Obeys.focus {E : Discipline τ} {get : σ → τ} {set : σ → τ → σ} {m : Run τ α}
    {r : α → τ → Prop} (h : m.Obeys E (get s) r)
    (whole : ∀ t, E.holds t → E.leads (get s) t → D.holds (set s t) ∧ D.leads s (set s t))
    (value : ∀ a t, r a t → p a (set s t)) (halts : ∀ e, E.halts e → D.halts e) :
    (Run.focus get set m).Obeys D s p := by
  rcases hm : m (get s) with ⟨x, t⟩
  have hfocus : Run.focus get set m s = (x, set s t) := by simp [Run.focus, hm]
  cases x with
  | ok a =>
    obtain ⟨part, grown, result⟩ := h.ok hm
    obtain ⟨holds, leads⟩ := whole t part grown
    exact .of_ok hfocus holds leads (value a t result)
  | error e =>
    obtain ⟨part, grown, halted⟩ := h.halt hm
    obtain ⟨holds, leads⟩ := whole t part grown
    exact .of_halt hfocus holds leads (halts e halted)

/-- A write to the frame gives the new frame, or leaves the old one. -/
theorem Obeys.updateFrame {D : Discipline Activation} {a : Activation}
    {f : Frame → Except Fault Frame} {p : Unit → Activation → Prop} (holds : D.holds a)
    (ok : ∀ g, f a.frame = .ok g →
      D.holds { a with frame := g } ∧ D.leads a { a with frame := g } ∧ p () { a with frame := g })
    (error : ∀ e, f a.frame = .error e → D.halts (.fault e [])) :
    (Activation.updateFrame f).Obeys D a p := by
  cases hf : f a.frame with
  | ok g =>
    obtain ⟨h, l, v⟩ := ok g hf
    exact .of_ok (by simp [Activation.updateFrame, Run.focus, Run.update, hf]) h l v
  | error e =>
    exact .of_halt (by simp [Activation.updateFrame, Run.focus, Run.update, hf]) holds (D.refl a)
      (error e hf)

/-- A write to the frame that passes leaves its frame. -/
theorem Obeys.of_updateFrame {D : Discipline Activation} {a : Activation} {g : Frame}
    {f : Frame → Except Fault Frame} {p : Unit → Activation → Prop} (h : f a.frame = .ok g)
    (holds : D.holds { a with frame := g }) (leads : D.leads a { a with frame := g })
    (value : p () { a with frame := g }) : (Activation.updateFrame f).Obeys D a p :=
  .of_ok (by simp [Activation.updateFrame, Run.focus, Run.update, h]) holds leads value

/-- A call records its name in the halts that leave it. -/
theorem Obeys.within {name : String} (h : m.Obeys D s p)
    (halts : ∀ e, D.halts e → D.halts (e.within name)) :
    (m.mapHalt (Halt.within name)).Obeys D s p := by
  rcases hm : m s with ⟨r, t⟩
  cases r with
  | ok a =>
    obtain ⟨holds, leads, value⟩ := h.ok hm
    exact .of_ok (by simp [Run.mapHalt, hm]) holds leads value
  | error e =>
    obtain ⟨holds, leads, halted⟩ := h.halt hm
    exact .of_halt (by simp [Run.mapHalt, hm]) holds leads (halts e halted)

end Run

end TypedEval
