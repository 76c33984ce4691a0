import TypedEval.Proofs.History.Session
import TypedEval.Proofs.SelfReference.Evaluation
import TypedEval.Proofs.Typing.Soundness

/-!
# Self-references stay at home

Disclosure makes a self-reference a shared one to whatever closure it is found in, and asks nothing.
The law (`Session.run_homed`): that closure is always the one that the self-reference names. Wherever a
host starts from a state in which self-references stand only in slots of their own closures, every
moment of its session is such a state, and no frame, call, argument, result or element holds one. So
the knot of a recursive binding holds for good: in every later call, of the same evaluation or of a
later one, the function that was bound finds itself in the slot that its recursion reads.

Trees, frames and calls may be any that the host can come by without making functions up
(`Session.HandsOn`). The proof goes by induction over the session; each step starts from the knots that
the history has completed by then, and everything that is known respects them.
-/

namespace TypedEval

/-- **A host hands on only functions that it knows**: in code, in the slots of frames, in constants of
trees, and when it calls. It comes to know what its steps return, and what they leave in its frame. -/
inductive Session.HandsOn : Session → (Function → Prop) → Prop where
  | done (known : Function → Prop) : HandsOn .done known
  | load {routine : Routine} {next : Session} {known : Function → Prop}
      (hroutine : routine.HandsOn known) (h : HandsOn next known) : HandsOn (.load routine next) known
  | enter {frame : Frame} {next : Session} {known : Function → Prop}
      (hframe : frame.Holds (fun _ => known) none) (h : HandsOn next known) :
      HandsOn (.enter frame next) known
  | evaluate {depth : Nat} {n : AnyNode} {next : Except Halt Value → Frame → Session}
      {known : Function → Prop} (hn : n.node.All (Item.Holds known))
      (h : ∀ more : Function → Prop, (∀ g, known g → more g) →
        ∀ r frame, (∀ v, r = .ok v → v.Holds more) → frame.Holds (fun _ => more) none →
          HandsOn (next r frame) more) : HandsOn (.evaluate depth n next) known
  | call {depth : Nat} {f : Function} {args : List Value} {next : Except Halt Value → Session}
      {known : Function → Prop} (hf : known f) (hargs : ∀ v ∈ args, v.Holds known)
      (h : ∀ more : Function → Prop, (∀ g, known g → more g) →
        ∀ r, (∀ v, r = .ok v → v.Holds more) → HandsOn (next r) more) :
      HandsOn (.call depth f args next) known

/-- What a step came to is at home. -/
def Session.Outcome.Homed (o : Session.Outcome) : Prop :=
  o.state.Homed ∧ ∀ v, o.result = .ok v → v.HomedIn o.state.store

/-! ## Between the steps -/

/-- The functions that a host may know after a history. -/
abbrev Recorded.Known (w : Recorded Activation) : Function → Prop :=
  w.state.store.Knows w.history none

/-- **A state is kept between steps**: all knots of its history are tied, and its history is sound. -/
structure Recorded.Settled (code : Code) (w : Recorded Activation) : Prop where
  kept : w.state.Kept (knotsOf w.history) (knotsOf w.history)
  sound : Sound code w.history

theorem Frame.holds_none {good : Option Nat → Function → Prop} {f : Frame} :
    f.Holds good none ↔ f.Holds (fun _ => good none) none := by
  have same (c : Cell) (ty : Ty) :
      c.Holds good none ty ↔ c.Holds (fun _ => good none) none ty := by
    unfold Cell.Holds
    split <;> exact Iff.rfl
  exact forall_congr' fun i => forall_congr' fun s => forall_congr' fun _ => same s.cell s.ty

section

variable {code : Code} {w u : Recorded Activation}

theorem Recorded.Settled.ready (hw : w.Settled code) :
    (Discipline.recorded code w.Known []).holds w := by
  refine ⟨?_, hw.sound, fun _ hf => hf⟩
  rw [List.append_nil]
  exact hw.kept

/-- More code changes nothing. -/
theorem Recorded.Settled.load (hw : w.Settled code) (routine : Routine) :
    w.Settled (code.add routine) :=
  ⟨hw.kept, hw.sound.add routine⟩

/-- A frame with known functions takes the place of another. -/
theorem Recorded.Settled.enter (hw : w.Settled code) {frame : Frame}
    (hframe : frame.Holds (fun _ => w.Known) none) :
    Recorded.Settled code { w with state := { w.state with frame } } :=
  ⟨⟨Frame.holds_none.mpr hframe, hw.kept.store⟩, hw.sound⟩

/-- **What a step leaves is settled**, and what it returns is known from then on. -/
theorem Recorded.Settled.step {m : Run (Recorded Activation) Value}
    (h : m.Obeys (.recorded code w.Known []) w fun v u => v.Holds u.Known)
    {r : Except Halt Value} (hm : m w = (r, u)) :
    u.Settled code ∧ (∀ f, w.Known f → u.Known f) ∧ ∀ v, r = .ok v → v.Holds u.Known := by
  have settled (hu : (Discipline.recorded code w.Known []).holds u) : u.Settled code :=
    ⟨Discipline.recorded_kept hu, hu.2.1⟩
  cases r with
  | ok v =>
    obtain ⟨hu, -, hv⟩ := h.ok hm
    exact ⟨settled hu, hu.2.2, fun _ heq => by cases heq; exact hv⟩
  | error e =>
    obtain ⟨hu, -, -⟩ := h.halt hm
    exact ⟨settled hu, hu.2.2, fun _ heq => (nomatch heq)⟩

theorem Recorded.Settled.outcome (hu : u.Settled code) {r : Except Halt Value}
    (hr : ∀ v, r = .ok v → v.Holds u.Known) : Session.Outcome.Homed ⟨r, u.state⟩ :=
  ⟨hu.kept.homed, fun v hv => (hr v hv).imp fun _ hf => hf.homed⟩

/-! ## Sessions -/

/-- **Sessions keep functions at home.** -/
theorem Session.watch_kept {m : Session} (hm : m.HandsOn w.Known) (hw : w.Settled code)
    (hcode : code.HandsOn w.Known) :
    (m.watch code w).Settled (m.run code w.state).code ∧
      ∀ o ∈ (m.run code w.state).outcomes, o.Homed := by
  induction m generalizing code w with
  | done => exact ⟨hw, fun _ h => (nomatch h)⟩
  | load routine next ih =>
    cases hm with
    | load hroutine h => exact ih h (hw.load routine) (hcode.add hroutine)
  | enter frame next ih =>
    cases hm with
    | enter hframe h =>
      have entered := hw.enter hframe
      refine ih ?_ entered hcode
      exact h
  | evaluate depth n next ih =>
    cases hm with
    | evaluate hn h =>
      have evaluated := AnyNode.watch_kept [] (Code.observe_kept hcode depth) n hn hw.ready
      obtain ⟨history, hwatch, -⟩ := code.watch_eq_eval depth n w.state w.history
      rcases heval : code.eval depth n w.state with ⟨r, b⟩
      rw [heval] at hwatch
      obtain ⟨hu, grown, hr⟩ := Recorded.Settled.step evaluated hwatch
      obtain ⟨settled, outcomes⟩ := ih r b.frame
        (h _ grown r b.frame hr (Frame.holds_none.mp hu.kept.frame)) hu (hcode.imp grown)
      simp only [watch, run, heval, show code.watch depth n w = _ from hwatch]
      exact ⟨settled, List.forall_mem_cons.mpr ⟨hu.outcome hr, outcomes⟩⟩
  | call depth f args next ih =>
    cases hm with
    | call hf hargs h =>
      have called := Run.Obeys.onRecordedStore hw.ready
        (Code.observe_kept hcode depth [] f args ⟨w.state.store, w.history⟩
          ⟨hw.kept.store, hw.ready.2⟩ (.function hf) hargs)
      obtain ⟨history, hwatch, -⟩ :=
        code.onStore_observe_eq_call depth f args w.state w.history
      rcases hcall : Activation.onStore (code.call depth f args) w.state with ⟨r, b⟩
      rw [hcall] at hwatch
      obtain ⟨hu, grown, hr⟩ := Recorded.Settled.step called hwatch
      obtain ⟨settled, outcomes⟩ := ih r (h _ grown r hr) hu (hcode.imp grown)
      simp only [watch, run, hcall,
        show Recorded.onStore (code.observe depth [] f args) w = _ from hwatch]
      exact ⟨settled, List.forall_mem_cons.mpr ⟨hu.outcome hr, outcomes⟩⟩

end

/-! ## The law -/

/-- **The function of a recursive binding finds itself.** In what comes after the binding, each body
that is started for the function has it, as a shared reference that can be called, in the slot that
the closure's own slot is disclosed to, unless that slot is a later target of the disclosure or a
parameter. -/
def Function.FindsItself (code : Code) (f : Function) (closureSlot : Nat) (later : List Moment) :
    Prop :=
  ∀ g args frame s, .entered g args frame s ∈ later → g.sameInstance f = true →
    ∀ body, code.routine? g.target = some (.user body) →
    ∀ pre d post, body.disclosure = pre ++ ⟨closureSlot, d⟩ :: post →
      (∀ t ∈ post, t.target ≠ d) → d ∉ body.params →
      ∃ h, frame.readFunction d = .ok h ∧ h.sameInstance f = true ∧ h.isSelfReference = false ∧
        code.Callable h s

theorem Sound.findsItself {code : Code} {history before after : List Moment}
    (h : Sound code history) {slot closureSlot : Nat} {target : Target} {capture : Capture}
    {b : Activation}
    (hsplit : history = before ++ .tied slot (.define target capture) closureSlot b :: after) :
    ∃ f, b.frame.readFunction slot = .ok f ∧ f.isSelfReference = false ∧
      f.FindsItself code closureSlot after := by
  obtain ⟨target', id, hread⟩ := h.keeps before _ after hsplit ⟨target, capture, rfl⟩
  refine ⟨_, hread, rfl, ?_⟩
  intro g args frame s hmem hsame body hbody pre d post hdisclosure hpost hparams
  let κ : Knot := ⟨id, closureSlot, target'⟩
  obtain ⟨between, rest, rfl⟩ := List.append_of_mem hmem
  have hentered : history =
      (before ++ .tied slot (.define target capture) closureSlot b :: between)
        ++ .entered g args frame s :: rest := by
    rw [hsplit]
    simp
  obtain ⟨⟨body', closure, hroutine, hclosure, henter⟩, htied⟩ := h.keeps _ _ _ hentered
  have hhome : (Moment.entered g args frame s).Homed :=
    h.homed _ (by rw [hentered]; simp)
  -- The binding is among the knots that were completed when the body was started.
  have hκ : κ.TiedIn s := by
    refine htied κ ?_
    rw [knotsOf_append]
    refine List.mem_append_right _ ?_
    simp [knotsOf, Moment.knot?, hread, Function.closureId?, ClosureRef.id, κ]
  simp only [Function.sameInstance, Bool.and_eq_true, decide_eq_true_eq] at hsame
  obtain ⟨htarget, hid⟩ := hsame
  obtain ⟨cells, there, hcells, hthere, hty, hcell⟩ := hκ
  have found := Function.closureIn_of_some hid hcells
  rw [hclosure] at found
  cases found
  rw [hbody] at hroutine
  cases hroutine
  have hcellsHome := hhome.1.store κ.closure cells hcells
  obtain ⟨hself, u, hdisclosed⟩ :=
    Body.enter_knot hcellsHome hthere hty hcell hdisclosure hpost hparams henter
  refine ⟨κ.function, hself, by simp [Function.sameInstance, κ, Knot.function], rfl,
    body, (κ.closure, cells), u, ?_, Function.closureIn_of_some rfl hcells, hdisclosed⟩
  rw [← hbody]
  exact congrArg code.routine? htarget.symm

/-- **Self-references stay at home, and recursive knots hold.** Let a host start from an activation and
code in which self-references stand only in slots of the closures that they name, and let it and its
host functions hand on only what they know. Through all evaluations and calls of its session, however
they end, every moment is at home: no frame, call, argument, result or array element holds a
self-reference, and a closure holds only such as name it. So what disclosure hands out for a
self-reference, a reference to the closure that is disclosed, is the instance that the self-reference
was. And after a recursive binding of a definition, in the rest of the session, every call of the
function that was bound finds it where its recursion looks for it; the knot is tied still when the
session ends. -/
theorem Session.run_homed (m : Session) (code : Code) (a : Activation) (ha : a.Homed)
    (hcode : code.HandsOn (Function.Homed a.store.closures.size none))
    (hm : m.HandsOn (Function.Homed a.store.closures.size none)) :
    ∃ history, m.watch code ⟨a, []⟩ = ⟨(m.run code a).state, history⟩ ∧
      (∀ x ∈ history, x.Homed) ∧
      (∀ o ∈ (m.run code a).outcomes, o.Homed) ∧
      (m.run code a).state.Homed ∧
      (∀ f args s, .called f args s ∈ history →
        ∀ id closure, f.closureIn s = .ok (some (id, closure)) →
        ∀ (i : Nat) slot g, closure.slots[i]? = some slot → slot.cell = .reference (.function g) →
          g.isSelfReference = true → (g.withClosure id).sameInstance g = true) ∧
      (∀ before slot target capture closureSlot b after,
        history = before ++ .tied slot (.define target capture) closureSlot b :: after →
        ∃ f, b.frame.readFunction slot = .ok f ∧ f.isSelfReference = false ∧
          f.FindsItself (m.run code a).code closureSlot after) ∧
      (∀ κ ∈ knotsOf history, κ.TiedIn (m.run code a).state.store) := by
  obtain ⟨history, hwatch⟩ := m.watch_eq_run code a []
  rw [List.nil_append] at hwatch
  -- Before the first knot, the functions that may be known are those at home.
  have plain (home : Option Nat) (f : Function) (hf : f.Homed a.store.closures.size home) :
      f.Kept a.store.closures.size [] home := Function.kept_nil.mpr hf
  have settled : Recorded.Settled code ⟨a, []⟩ :=
    ⟨⟨ha.frame.imp plain, fun id frame h => (ha.store id frame h).imp plain,
      fun _ hκ => (nomatch hκ)⟩, .nil⟩
  have same : Recorded.Known ⟨a, []⟩ = Function.Homed a.store.closures.size none :=
    funext fun f => propext Function.kept_nil
  rw [← same] at hcode hm
  obtain ⟨⟨kept, sound⟩, outcomes⟩ := Session.watch_kept hm settled hcode
  rw [hwatch] at kept sound
  refine ⟨history, hwatch, sound.homed, outcomes, kept.homed, ?_, ?_, kept.store.tied⟩
  · intro f args s hcalled id closure hclosure i slot g hslot hcell hself
    have homed : s.Homed := (sound.homed _ hcalled).1
    have held := homed id closure (Function.closure_of_closureIn hclosure).2 i slot hslot
    rw [hcell] at held
    simp only [Function.sameInstance, Bool.and_eq_true, decide_eq_true_eq]
    exact ⟨rfl, (held.2.self hself).symm⟩
  · exact fun _ _ _ _ _ _ _ hsplit => sound.findsItself hsplit

/-! A recursive function that one program returns, and that the host has mapped over `[2, 1]` later. -/

namespace Returned

/-- `let rec f = countdown in f`. -/
def program : Program where
  layout := Countdown.layout
  body := Countdown.returned

/-- The host executes the program, loads `map`, and calls it with what came back. -/
def session : Session :=
  .execute 9 program fun r =>
    .load (.native Builtin.map) <|
      match r with
      | .ok f => .call 9 (.plain Countdowns.map) [.array ⟨0, .int, .ints #[2, 1]⟩, f] fun _ => .done
      | .error _ => .done

/-- An empty frame over a store without closures. -/
def start : Activation := ⟨.allocate .empty, .empty⟩

/-- The session with its history. -/
def watched : Recorded Activation := session.watch Countdown.code ⟨start, []⟩

/-- The function that the program binds, as it is called. -/
def function : Function := ⟨Countdown.target, some (.shared 0)⟩

theorem code_handsOn (given : Function → Prop) : Countdown.code.HandsOn given := by
  intro routine hroutine
  simp only [Countdown.code, List.mem_toArray, List.mem_singleton] at hroutine
  subst hroutine
  exact ⟨⟨trivial, trivial⟩, trivial, trivial, ⟨trivial, trivial⟩, trivial⟩

theorem session_handsOn : session.HandsOn (Function.Homed 0 none) := by
  have plain : (Function.plain Countdowns.map).Homed 0 none :=
    ⟨fun _ h => (nomatch h), fun h => (nomatch h)⟩
  refine .enter (.allocate Countdown.layout) (.evaluate ⟨⟨trivial, trivial, trivial⟩, trivial⟩ ?_)
  intro known grown r _ hr _
  refine .load (Builtin.standard_handsOn Countdowns.map_standard) ?_
  cases r with
  | error e => exact .done known
  | ok v =>
    refine .call (grown _ plain) ?_ fun more _ _ _ => .done more
    have numbers : (Value.array ⟨0, .int, .ints #[2, 1]⟩).Holds known :=
      .array fun _ h => (nomatch h)
    exact List.forall_mem_cons.mpr ⟨numbers, List.forall_mem_singleton.mpr (hr v rfl)⟩

/-- What the recursive binding of a definition has bound: its slots, and what is in the slot by
then. -/
def bound? : Moment → Option (Nat × Nat × Option Function)
  | .tied slot (.define _ _) closureSlot b =>
    some (slot, closureSlot, (b.frame.readFunction slot).toOption)
  | _ => none

theorem eq_tied_of_bound? {m : Moment} {slot closureSlot : Nat} {f : Function}
    (h : bound? m = some (slot, closureSlot, some f)) :
    ∃ target capture b, m = .tied slot (.define target capture) closureSlot b ∧
      b.frame.readFunction slot = .ok f := by
  cases m with
  | tied i n j b =>
    cases n with
    | define target capture =>
      injection h with h
      injection h with hi h
      injection h with hj hf
      subst hi hj
      cases hread : b.frame.readFunction i with
      | ok g =>
        rw [hread] at hf
        cases hf
        exact ⟨target, capture, b, rfl, hread⟩
      | error e =>
        rw [hread] at hf
        cases hf
    | _ => cases h
  | _ => cases h

/-- The fourth moment is the recursive binding. -/
theorem watched_tied : ∃ target capture b,
    watched.history[3]? = some (.tied 0 (.define target capture) 0 b) ∧
      b.frame.readFunction 0 = .ok function := by
  have shape : watched.history[3]?.bind bound? = some (0, 0, some function) := by decide +kernel
  obtain ⟨m, hm, hbound⟩ := Option.bind_eq_some_iff.mp shape
  obtain ⟨target, capture, b, rfl, hread⟩ := eq_tied_of_bound? hbound
  exact ⟨target, capture, b, hm, hread⟩

end Returned

/-- The countdown that a program returns finds itself in each of the five calls that follow when the host
has it mapped, none of them in the evaluation that bound it. -/
theorem returned_homed :
    (∀ x ∈ Returned.watched.history, x.Homed) ∧
    ((Returned.watched.history.drop 4).filter
      fun | .entered f .. => f.sameInstance Returned.function | _ => false).length = 5 ∧
    Returned.function.FindsItself (Returned.session.run Countdown.code Returned.start).code 0
      (Returned.watched.history.drop 4) := by
  obtain ⟨history, hwatch, hmoments, -, -, -, hknots, -⟩ :=
    Session.run_homed Returned.session Countdown.code Returned.start
      ⟨.allocate _, fun _ _ h => (nomatch h)⟩ (Returned.code_handsOn _) Returned.session_handsOn
  have hhistory : history = Returned.watched.history := by rw [Returned.watched, hwatch]
  subst hhistory
  obtain ⟨target, capture, b, htied, hread⟩ := Returned.watched_tied
  obtain ⟨hlt, hget⟩ := List.getElem?_eq_some_iff.mp htied
  have hsplit : Returned.watched.history = Returned.watched.history.take 3
      ++ .tied 0 (.define target capture) 0 b :: Returned.watched.history.drop 4 := by
    rw [← hget, ← List.drop_eq_getElem_cons, List.take_append_drop]
  obtain ⟨f, hf, -, hself⟩ := hknots _ _ _ _ _ _ _ hsplit
  rw [hread] at hf
  cases hf
  exact ⟨hmoments, by decide +kernel, hself⟩

end TypedEval
