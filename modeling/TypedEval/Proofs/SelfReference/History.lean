import TypedEval.Proofs.History.Basic
import TypedEval.Proofs.Node.Recursion
import TypedEval.Proofs.SelfReference.Knots

/-!
# Histories that keep knots tied

A history is **sound** when at each of its moments everything is at home, and every body that was
entered was entered with all knots tied that had been completed by then. The knots of a history are
the recursive bindings of definitions that it has seen.

`Discipline.recorded` is what a watched run keeps: its history stays sound, and knots are added only
in closures that were made meanwhile. So a value that was at home before a run is at home after it.
-/

namespace TypedEval

/-! ## Starting a body -/

/-- **A call starts the body of a function** in a frame: its closure and its code are there, and the
captured slots and the arguments were written. -/
def Code.Starts (code : Code) (f : Function) (args : List Value) (s : Store) (frame : Frame) : Prop :=
  ∃ body closure, code.routine? f.target = some (.user body) ∧ f.closureIn s = .ok closure ∧
    body.enter closure args (.allocate body.frame) = (.ok (), frame)

theorem Code.routine?_add {code : Code} {t : Target} {routine : Routine}
    (h : code.routine? t = some routine) (r : Routine) :
    (code.add r).routine? t = some routine := by
  unfold Code.routine? Code.add at *
  rw [Array.getElem?_push_lt (Array.getElem?_eq_some_iff.mp h).1]
  exact (Array.getElem?_eq_getElem _).symm.trans h

/-- **A function with a closure can be called**: its code and its closure are there, and the captured
slots can be taken out. What may still be refused is the arguments. -/
def Code.Callable (code : Code) (f : Function) (s : Store) : Prop :=
  ∃ body closure frame, code.routine? f.target = some (.user body) ∧
    f.closureIn s = .ok (some closure) ∧
    disclose body.disclosure (some closure) (.allocate body.frame) = (.ok (), frame)

/-! ## The knots of a history -/

/-- The knot that a moment has completed: that of a definition bound recursively. -/
def Moment.knot? : Moment → Option Knot
  | .tied slot (.define _ _) closureSlot a =>
    match a.frame.readFunction slot with
    | .ok f => f.closureId?.map fun id => ⟨id, closureSlot, f.target⟩
    | .error _ => none
  | _ => none

/-- **The knots that a history has completed.** -/
def knotsOf (history : List Moment) : List Knot := history.filterMap Moment.knot?

@[simp] theorem knotsOf_append (history more : List Moment) :
    knotsOf (history ++ more) = knotsOf history ++ knotsOf more := by
  simp [knotsOf]

theorem knotsOf_single {m : Moment} (h : m.knot? = none) : knotsOf [m] = [] := by
  simp [knotsOf, h]

@[simp] theorem knotsOf_moments (e : Halt) : knotsOf e.moments = [] := by
  unfold Halt.moments
  split <;> rfl

/-- **Everything in a moment is at home.** -/
def Moment.Homed : Moment → Prop
  | .reached a | .tied _ _ _ a => a.Homed
  | .called f args s => s.Homed ∧ (Value.function f).HomedIn s ∧ ∀ v ∈ args, v.HomedIn s
  | .entered f args frame s =>
    (Activation.mk frame s).Homed ∧ (Value.function f).HomedIn s ∧ ∀ v ∈ args, v.HomedIn s
  | .returned f v s => s.Homed ∧ (Value.function f).HomedIn s ∧ v.HomedIn s
  | .raised _ => True

/-- A moment stands to the knots completed before it as it should: a body is started with all of them
tied, and a definition that was bound recursively is in its slot with a closure. -/
def Moment.Keeps (code : Code) (knots : List Knot) : Moment → Prop
  | .tied slot value _ a =>
    value.IsDefinition → ∃ target id, a.frame.readFunction slot = .ok ⟨target, some (.shared id)⟩
  | .entered f args frame s => code.Starts f args s frame ∧ ∀ κ ∈ knots, κ.TiedIn s
  | _ => True

/-- **A history is sound.** -/
structure Sound (code : Code) (history : List Moment) : Prop where
  homed : ∀ m ∈ history, m.Homed
  keeps : ∀ before m after, history = before ++ m :: after → m.Keeps code (knotsOf before)

namespace Sound

variable {code : Code} {history : List Moment}

theorem nil : Sound code [] :=
  ⟨fun _ h => (nomatch h), fun before m after h => by simp at h⟩

theorem append (h : Sound code history) {m : Moment} (homed : m.Homed)
    (keeps : m.Keeps code (knotsOf history)) : Sound code (history ++ [m]) := by
  constructor
  · intro k hk
    obtain hk | hk := List.mem_append.mp hk
    · exact h.homed k hk
    · cases List.mem_singleton.mp hk
      exact homed
  · intro before k after hsplit
    obtain rfl | ⟨init, last, rfl⟩ := List.eq_nil_or_concat after
    · obtain ⟨rfl, hm⟩ := List.append_inj' hsplit rfl
      cases hm
      exact keeps
    · have hsplit : history ++ [m] = (before ++ k :: init) ++ [last] := by simpa using hsplit
      obtain ⟨rfl, -⟩ := List.append_inj' hsplit rfl
      exact h.keeps before k init rfl

/-- More code takes nothing away. -/
theorem add (h : Sound code history) (r : Routine) : Sound (code.add r) history := by
  refine ⟨h.homed, fun before m after hsplit => ?_⟩
  have keeps := h.keeps before m after hsplit
  cases m with
  | entered f args frame s =>
    obtain ⟨⟨body, closure, hroutine, started⟩, tied⟩ := keeps
    exact ⟨⟨body, closure, Code.routine?_add hroutine r, started⟩, tied⟩
  | _ => exact keeps

theorem append_moments (h : Sound code history) (e : Halt) : Sound code (history ++ e.moments) := by
  unfold Halt.moments
  split
  · exact h.append trivial trivial
  · rw [List.append_nil]; exact h

end Sound

/-! ## What a watched run keeps -/

/-- **A history goes on from another**: closures were added, and knots in those closures. -/
structure Later (n : Nat) (history : List Moment) (m : Nat) (further : List Moment) : Prop where
  size : n ≤ m
  knots : ∀ κ ∈ knotsOf further, κ ∈ knotsOf history ∨ n ≤ κ.closure

namespace Later

variable {k m n : Nat} {first second third : List Moment}

theorem refl (n : Nat) (history : List Moment) : Later n history n history :=
  ⟨Nat.le_refl n, fun _ hκ => .inl hκ⟩

theorem trans (h : Later k first m second) (h' : Later m second n third) :
    Later k first n third := by
  refine ⟨Nat.le_trans h.size h'.size, fun κ hκ => ?_⟩
  obtain hold | hnew := h'.knots κ hκ
  · exact h.knots κ hold
  · exact .inr (Nat.le_trans h.size hnew)

/-- The same knots in a store that has grown. -/
theorem of_knots (hsize : n ≤ m) (h : knotsOf second = knotsOf first) :
    Later n first m second :=
  ⟨hsize, fun _ hκ => .inl (h ▸ hκ)⟩

end Later

/-- The functions that may stand in a place, after a history. -/
abbrev Store.Knows (s : Store) (history : List Moment) : Option Nat → Function → Prop :=
  Function.Kept s.closures.size (knotsOf history)

theorem Function.Kept.later {n m : Nat} {history further : List Moment} {home : Option Nat}
    {f : Function} (h : Later n history m further) (hf : f.Kept n (knotsOf history) home) :
    f.Kept m (knotsOf further) home :=
  hf.mono h.size h.knots

/-- Before the first knot, what is at home is all that may stand in a place. -/
theorem Function.kept_nil {n : Nat} {home : Option Nat} {f : Function} :
    f.Kept n [] home ↔ f.Homed n home :=
  ⟨fun hf => hf.homed, fun hf => ⟨hf, fun _ hκ => (nomatch hκ)⟩⟩

theorem Store.Kept.homed {knots tied : List Knot} {s : Store} (hs : s.Kept knots tied) : s.Homed :=
  fun id frame h => (hs.functions id frame h).imp fun _ _ hf => hf.homed

theorem Activation.Kept.homed {knots tied : List Knot} {a : Activation} (ha : a.Kept knots tied) :
    a.Homed :=
  ⟨ha.frame.imp fun _ _ hf => hf.homed, ha.store.homed⟩

/-- **What a watched run in an activation keeps.** The functions that were `given` in advance may be
handed on at any time. Functions respect the `pending` knots as well, which are about to be tied. -/
def Discipline.recorded (code : Code) (given : Function → Prop) (pending : List Knot) :
    Discipline (Recorded Activation) where
  holds w := w.state.Kept (knotsOf w.history ++ pending) (knotsOf w.history) ∧
    Sound code w.history ∧ ∀ f, given f → w.state.store.Knows w.history none f
  leads w u := Later w.state.store.closures.size w.history u.state.store.closures.size u.history
  halts _ := True
  refl _ := .refl _ _
  trans := .trans

/-- **What a watched run on the store keeps.** -/
def Discipline.recordedStore (code : Code) (given : Function → Prop) :
    Discipline (Recorded Store) where
  holds w := w.state.Kept (knotsOf w.history) (knotsOf w.history) ∧ Sound code w.history ∧
    ∀ f, given f → w.state.Knows w.history none f
  leads w u := Later w.state.closures.size w.history u.state.closures.size u.history
  halts _ := True
  refl _ := .refl _ _
  trans := .trans

section

variable {code : Code} {given : Function → Prop} {pending : List Knot} {stack : List String}
  {α : Type}

/-- **An operation that keeps the activation keeps the history** that it is recorded in. -/
theorem Run.Obeys.step {m : Run Activation α} {p : α → Activation → Prop}
    {w : Recorded Activation} (hw : (Discipline.recorded code given pending).holds w)
    (h : m.Obeys (.kept (knotsOf w.history ++ pending) (knotsOf w.history)) w.state p) :
    (Recorded.step stack m).Obeys (.recorded code given pending) w fun x u =>
      knotsOf u.history = knotsOf w.history ∧ p x u.state := by
  obtain ⟨-, sound, known⟩ := hw
  have reached (b : Activation) : knotsOf (w.history ++ [.reached b]) = knotsOf w.history := by
    rw [knotsOf_append, knotsOf_single rfl, List.append_nil]
  rcases hm : m w.state with ⟨r, b⟩
  cases r with
  | ok x =>
    obtain ⟨kept, grown, value⟩ := h.ok hm
    have onward := Later.of_knots grown (reached b)
    refine .of_ok (t := ⟨b, w.history ++ [Moment.reached b]⟩) (by simp [Recorded.step, Recorded.act, hm])
      ⟨?_, sound.append (m := .reached b) kept.homed trivial,
        fun f hf => (known f hf).later onward⟩ onward ⟨reached b, value⟩
    rw [reached]
    exact kept
  | error e =>
    obtain ⟨kept, grown, -⟩ := h.halt hm
    have same : knotsOf (w.history ++ [.reached b] ++ e.moments) = knotsOf w.history := by
      rw [knotsOf_append, reached, knotsOf_moments, List.append_nil]
    have onward := Later.of_knots grown same
    have seen := sound.append (m := .reached b) kept.homed trivial
    refine .of_halt (e := e.snapshot stack) 
      (t := ⟨b, w.history ++ [Moment.reached b] ++ e.moments⟩)
      (by simp only [Recorded.step, Recorded.act, hm])
      ⟨?_, seen.append_moments e, fun f hf => (known f hf).later onward⟩ onward trivial
    rw [same]
    exact kept

/-- The same outside of activations. -/
theorem Run.Obeys.plain {m : Run Store α} {p : α → Store → Prop} {w : Recorded Store}
    (hw : (Discipline.recordedStore code given).holds w)
    (h : m.Obeys (.keptStore (knotsOf w.history) (knotsOf w.history)) w.state p) :
    (Recorded.plain stack m).Obeys (.recordedStore code given) w fun x u =>
      knotsOf u.history = knotsOf w.history ∧ p x u.state := by
  obtain ⟨-, sound, known⟩ := hw
  rcases hm : m w.state with ⟨r, t⟩
  cases r with
  | ok x =>
    obtain ⟨kept, grown, value⟩ := h.ok hm
    have onward := Later.of_knots grown (rfl : knotsOf w.history = _)
    exact .of_ok (t := ⟨t, w.history⟩) (by simp [Recorded.plain, Recorded.act, hm])
      ⟨kept, sound, fun f hf => (known f hf).later onward⟩ onward ⟨rfl, value⟩
  | error e =>
    obtain ⟨kept, grown, -⟩ := h.halt hm
    have same : knotsOf (w.history ++ e.moments) = knotsOf w.history := by
      rw [knotsOf_append, knotsOf_moments, List.append_nil]
    have onward := Later.of_knots grown same
    refine .of_halt (e := e.snapshot stack) (t := ⟨t, w.history ++ e.moments⟩)
      (by simp [Recorded.plain, Recorded.act, hm])
      ⟨?_, sound.append_moments e, fun f hf => (known f hf).later onward⟩ onward trivial
    rw [same]
    exact kept

/-- A moment outside of activations that completes no knot. -/
theorem Run.Obeys.note {moment : Store → Moment} {w : Recorded Store}
    (hw : (Discipline.recordedStore code given).holds w) (homed : (moment w.state).Homed)
    (keeps : (moment w.state).Keeps code (knotsOf w.history))
    (hknot : (moment w.state).knot? = none) :
    (Recorded.note moment).Obeys (.recordedStore code given) w fun _ u =>
      u.state = w.state ∧ knotsOf u.history = knotsOf w.history := by
  obtain ⟨kept, sound, known⟩ := hw
  have same : knotsOf (w.history ++ [moment w.state]) = knotsOf w.history := by
    rw [knotsOf_append, knotsOf_single hknot, List.append_nil]
  have onward := Later.of_knots (Nat.le_refl w.state.closures.size) same
  refine .of_ok (t := ⟨w.state, w.history ++ [moment w.state]⟩) rfl
    ⟨?_, sound.append homed keeps, fun f hf => (known f hf).later onward⟩ onward ⟨rfl, same⟩
  rw [same]
  exact kept

/-- A watched run on the store is one in the activation. -/
theorem Run.Obeys.onRecordedStore {m : Run (Recorded Store) α} {p : α → Recorded Store → Prop}
    {w : Recorded Activation} (hw : (Discipline.recorded code given []).holds w)
    (h : m.Obeys (.recordedStore code given) ⟨w.state.store, w.history⟩ p) :
    (Recorded.onStore m).Obeys (.recorded code given []) w fun x u =>
      p x ⟨u.state.store, u.history⟩ := by
  obtain ⟨kept, -, -⟩ := hw
  refine .focus h (fun u hu onward => ⟨⟨⟨?_, ?_⟩, hu.2.1, hu.2.2⟩, onward⟩)
    (fun _ _ hp => hp) (fun _ he => he)
  · rw [List.append_nil] at kept ⊢
    exact kept.frame.imp fun _ _ hf => hf.later onward
  · rw [List.append_nil]
    exact hu.1

/-! ## The recursive binding of a definition -/

variable {w : Recorded Activation} {κ : Knot}

/-- What is there respects a knot in a closure that is not there yet. -/
theorem Discipline.recorded_pending (hw : (Discipline.recorded code given []).holds w)
    (hκ : w.state.store.closures.size ≤ κ.closure) :
    (Discipline.recorded code given [κ]).holds w := by
  obtain ⟨⟨frame, functions, tied⟩, sound, known⟩ := hw
  have respected (home : Option Nat) (f : Function) :
      f.Kept w.state.store.closures.size (knotsOf w.history ++ []) home →
      f.Kept w.state.store.closures.size (knotsOf w.history ++ [κ]) home := by
    refine .mono (Nat.le_refl _) fun κ' hκ' => ?_
    obtain hold | hnew := List.mem_append.mp hκ'
    · exact .inl (List.mem_append_left _ hold)
    · cases List.mem_singleton.mp hnew
      exact .inr hκ
  exact ⟨⟨frame.imp respected, fun id g h => (functions id g h).imp respected, tied⟩, sound, known⟩

theorem Discipline.recorded_of_pending (hw : (Discipline.recorded code given [κ]).holds w) :
    (Discipline.recorded code given []).holds w := by
  obtain ⟨⟨frame, functions, tied⟩, sound, known⟩ := hw
  have fewer (home : Option Nat) (f : Function) :
      f.Kept w.state.store.closures.size (knotsOf w.history ++ [κ]) home →
      f.Kept w.state.store.closures.size (knotsOf w.history ++ []) home :=
    .mono (Nat.le_refl _) fun _ h => .inl (List.mem_append_left _ (by simpa using h))
  exact ⟨⟨frame.imp fewer, fun id g h => (functions id g h).imp fewer, tied⟩, sound, known⟩

/-- **A pending knot that has been tied is one of the history** from the moment that it is noted. -/
theorem Run.Obeys.tied {m : Run (Recorded Activation) Unit} {slot : Nat}
    (hw : (Discipline.recorded code given []).holds w) (target : Target) (capture : Capture)
    (hκ : w.state.store.closures.size ≤ κ.closure)
    (h : m.Obeys (.recorded code given [κ]) w fun _ u =>
      u.state.frame.readFunction slot = .ok κ.function ∧ κ.TiedIn u.state.store) :
    (m >>= fun _ => Recorded.note (.tied slot (.define target capture) κ.slot)).Obeys
      (.recorded code given []) w fun _ _ => True := by
  rcases hm : m w with ⟨r, u⟩
  cases r with
  | error e =>
    obtain ⟨hu, onward, -⟩ := h.halt hm
    exact .of_halt (bind_halt hm) (Discipline.recorded_of_pending hu) onward trivial
  | ok x =>
    obtain ⟨⟨⟨frame, functions, tied⟩, sound, -⟩, onward, hread, htied⟩ := h.ok hm
    have knots : knotsOf (u.history ++ [.tied slot (.define target capture) κ.slot u.state])
        = knotsOf u.history ++ [κ] := by
      rw [knotsOf_append]
      simp [knotsOf, Moment.knot?, hread, Knot.function, Function.closureId?, ClosureRef.id]
    have further : Later w.state.store.closures.size w.history u.state.store.closures.size
        (u.history ++ [.tied slot (.define target capture) κ.slot u.state]) := by
      refine ⟨onward.size, fun κ' hκ' => ?_⟩
      obtain hold | hnew := List.mem_append.mp (knots ▸ hκ')
      · exact onward.knots κ' hold
      · cases List.mem_singleton.mp hnew
        exact .inr hκ
    refine .of_ok
      (t := ⟨u.state, u.history ++ [Moment.tied slot (.define target capture) κ.slot u.state]⟩)
      ((bind_ok hm).trans rfl) ⟨?_, ?_, ?_⟩ further trivial
    · rw [knots, List.append_nil]
      refine ⟨frame, functions, fun κ' hκ' => ?_⟩
      obtain hold | hnew := List.mem_append.mp hκ'
      · exact tied κ' hold
      · cases List.mem_singleton.mp hnew
        exact htied
    · have homed : u.state.Homed := Activation.Kept.homed ⟨frame, functions, tied⟩
      exact sound.append homed fun _ => ⟨_, _, hread⟩
    · exact fun f hf => (hw.2.2 f hf).later further

/-- **Binding a definition recursively completes a knot.** The definition's function respects the knot
from the start, since its closure is the next one of the store; so does everything else that is
there, since it cannot name that closure yet. -/
theorem bindDefinition_recorded (stack : List String)
    (hw : (Discipline.recorded code given []).holds w) (target : Target) (capture : Capture)
    (slot closureSlot : Nat) :
    Run.Obeys (.recorded code given []) (do
      let f ← Recorded.step stack (instantiate target capture)
      Recorded.step stack (Activation.updateFrame (·.writeFunction slot f))
      Recorded.step stack (tieKnot slot closureSlot)
      Recorded.note (.tied slot (.define target capture) closureSlot)) w fun _ _ => True := by
  let κ : Knot := ⟨w.state.store.closures.size, closureSlot, target⟩
  have pending : (Discipline.recorded code given [κ]).holds w :=
    Discipline.recorded_pending hw (Nat.le_refl _)
  -- The closure of a tied knot is there already, so the next one belongs to the new knot alone.
  have fresh : ∀ κ' ∈ knotsOf w.history ++ [κ],
      κ'.closure = w.state.store.closures.size → κ'.target = target := by
    intro κ' hκ' hclosure
    obtain hold | hnew := List.mem_append.mp hκ'
    · exact absurd hclosure (Nat.ne_of_lt (hw.1.store.tied κ' hold).lt_size)
    · cases List.mem_singleton.mp hnew
      rfl
  have bound : Run.Obeys (.recorded code given [κ]) (do
      let f ← Recorded.step stack (instantiate target capture)
      Recorded.step stack (Activation.updateFrame (·.writeFunction slot f))
      Recorded.step stack (tieKnot slot closureSlot)) w fun _ u =>
        u.state.frame.readFunction slot = .ok κ.function ∧ κ.TiedIn u.state.store := by
    refine .bind (Run.Obeys.step pending (instantiate_kept pending.1 capture fresh)) ?_
    rintro f u hu - ⟨hknots, hf, hclosure⟩
    refine .bind (Run.Obeys.step hu (writeFunction_kept hu.1 (hknots ▸ hf) slot)) ?_
    rintro - v hv - ⟨hknots', hstore, hread⟩
    have htarget : f.target = target := by
      obtain ⟨rfl, -⟩ | rfl := hclosure <;> rfl
    have hid : f.closureId?.getD v.state.store.closures.size = κ.closure := by
      obtain ⟨rfl, heq⟩ | rfl := hclosure
      · rw [hstore, heq]; rfl
      · rfl
    refine (Run.Obeys.step hv (tieKnot_kept hv.1 (fun _ h => List.mem_append_left _ h) ?_)).imp ?_
    · intro g hg hnone κ' hκ' hsize
      rw [hread] at hg
      cases hg
      rw [hnone] at hid
      rw [htarget]
      exact fresh κ' (by rw [← hknots, ← hknots']; exact hκ') (hsize.trans hid)
    · rintro - t ⟨-, g, id, hg, rfl, hslot, htied⟩
      rw [hread] at hg
      cases hg
      rw [hid, htarget] at hslot htied
      exact ⟨hslot, htied⟩
  have whole := Run.Obeys.tied hw target capture (Nat.le_refl _) bound
  simp only [bind_assoc] at whole
  exact whole

end

end TypedEval
