import TypedEval.Builtin.Sequence
import TypedEval.Proofs.Closure.Basic
import TypedEval.Proofs.History.Basic

/-!
# Backtraces are the calls under way

A cause that leaves a call has the name of the call added to its trace. The law
(`Code.eval_backtrace`): what has been gathered that way at the end is the stack of the calls that
were under way when the cause was raised, as the evaluation with a history keeps it and as the
history itself shows it, in the calls that it has entered and not left.

The proof relates each watched run to the plain one (`Records`). The relation holds of every
operation that leaves no call (`Run.Immediate`), composes along `>>=`, and goes through a call by
moving the name of the function from the end of the trace to the top of the stack.
-/

namespace TypedEval

/-! ## The calls that a history has entered and not left -/

/-- The calls under way after a moment, from those before it. -/
def Moment.follow (stack : List String) : Moment → List String
  | .called f _ _ => f.displayName :: stack
  | .returned _ _ _ => stack.tail
  | _ => stack

/-- **The calls under way at the end of a history**, by name and innermost first. -/
def activeCalls (history : List Moment) : List String := history.foldl Moment.follow []

@[simp] theorem activeCalls_append (history : List Moment) (m : Moment) :
    activeCalls (history ++ [m]) = m.follow (activeCalls history) := by
  simp [activeCalls]

/-- A raised cause, as it is seen from outside of the calls in a stack. -/
def Halt.under (stack : List String) : Halt → Halt
  | .fault (.raised cause) trace => .fault (.raised cause) (trace ++ stack)
  | h => h

theorem mapError_ok {α : Type} (f : Halt → Halt) (a : α) :
    (Except.ok a : Except Halt α).mapError f = .ok a := rfl

theorem mapError_error {α : Type} (f : Halt → Halt) (e : Halt) :
    (Except.error e : Except Halt α).mapError f = .error (f e) := rfl

/-- **How a history ends** with a run under a stack of calls. With a value, the same calls are under
way as before. With a raised cause, its raising is the last moment, and the calls under way before it
are those that the cause has left by then and those in the stack. -/
def EndsUnder {α : Type} (stack : List String) (history : List Moment) : Except Halt α → Prop
  | .ok _ => activeCalls history = stack
  | .error (.fault (.raised cause) trace) =>
    ∃ before, history = before ++ [.raised cause] ∧ trace ++ stack = activeCalls before
  | .error _ => True

/-- **A watched run records a plain one** under a stack of calls: it ends alike, with the stack below
the trace of a raised cause, and its history shows the stack. Whatever happened `earlier` stays in the
history and plays no part. -/
def Records {σ α : Type} (stack : List String) (w : Run (Recorded σ) α) (m : Run σ α) : Prop :=
  ∀ s earlier past, activeCalls past = stack → ∃ history,
    w ⟨s, earlier ++ past⟩
        = ((m s).1.mapError (Halt.under stack), ⟨(m s).2, earlier ++ history⟩) ∧
      EndsUnder stack history (m s).1

/-! ## Operations that leave no call -/

namespace Run

variable {σ τ α β : Type}

/-- **A run halts on the spot**: its faults have left no call. -/
def Immediate (m : Run σ α) : Prop :=
  ∀ s t f trace, m s = (.error (.fault f trace), t) → trace = []

theorem Immediate.check (x : Except Fault α) : (Run.check x : Run σ α).Immediate := by
  intro s t f trace h
  cases x with
  | ok a => cases h
  | error e => cases h; rfl

theorem Immediate.read (f : σ → Except Fault α) : (Run.read f).Immediate := by
  intro s t e trace h
  exact Immediate.check (f s) s t e trace h

theorem Immediate.update (f : σ → Except Fault σ) : (Run.update f).Immediate := by
  intro s t e trace h
  unfold Run.update at h
  split at h
  · cases h
  · cases h; rfl

theorem Immediate.fault (f : Fault) : (Run.fault f : Run σ α).Immediate := by
  intro s t e trace h
  cases h
  rfl

theorem Immediate.of_ok {m : Run σ α} (h : ∀ s, ∃ a t, m s = (.ok a, t)) : m.Immediate := by
  intro s t f trace hm
  obtain ⟨a, u, hu⟩ := h s
  rw [hu] at hm
  cases hm

theorem Immediate.bind {m : Run σ α} {k : α → Run σ β} (h : m.Immediate)
    (hk : ∀ a, (k a).Immediate) : (m >>= k).Immediate := by
  intro s t f trace hs
  rcases hm : m s with ⟨r, u⟩
  cases r with
  | error e =>
    rw [bind_halt hm] at hs
    cases hs
    exact h s t f trace hm
  | ok a =>
    rw [bind_ok hm] at hs
    exact hk a u t f trace hs

theorem Immediate.focus {get : σ → τ} {set : σ → τ → σ} {m : Run τ α} (h : m.Immediate) :
    (Run.focus get set m).Immediate := by
  intro s t f trace hs
  rcases hm : m (get s) with ⟨r, u⟩
  simp only [Run.focus, hm, Prod.mk.injEq] at hs
  obtain ⟨rfl, -⟩ := hs
  exact h (get s) u f trace hm

end Run

open Run

theorem instantiate_immediate (target : Target) (capture : Capture) :
    (instantiate target capture).Immediate := by
  intro a b f trace h
  obtain ⟨-, hi⟩ | ⟨e, -, hi⟩ | ⟨frame, -, hi⟩ := instantiate_cases target capture a
  · rw [hi] at h; cases h
  · rw [hi] at h; cases h; rfl
  · rw [hi] at h; cases h

theorem ensureClosure_immediate (slot : Nat) (f : Function) : (ensureClosure slot f).Immediate := by
  refine .bind (.read _) fun r => ?_
  cases r with
  | some r => exact .of_ok fun a => ⟨_, a, rfl⟩
  | none =>
    simp only
    split
    · exact .bind (.read _) fun _ => .fault _
    · refine .bind (.focus (.of_ok fun s => ⟨_, _, rfl⟩)) fun id => ?_
      exact .bind (.focus (.update _)) fun _ => .of_ok fun a => ⟨_, a, rfl⟩

theorem tieKnot_immediate (slot closureSlot : Nat) : (tieKnot slot closureSlot).Immediate :=
  .bind (.read _) fun _ => .bind (ensureClosure_immediate slot _) fun _ => .focus (.update _)

theorem disclose_immediate (transfers : List Transfer) (closure : Option (Nat × Frame)) :
    (disclose transfers closure).Immediate := by
  unfold disclose
  split
  · split
    · exact .of_ok fun f => ⟨(), f, rfl⟩
    · exact .fault _
  · split
    · exact .fault _
    · next id frame _ =>
      induction transfers with
      | nil => exact .of_ok fun f => ⟨(), f, rfl⟩
      | cons t ts ih =>
        refine .bind (.update _) fun _ => ?_
        cases ts with
        | nil => exact .of_ok fun f => ⟨(), f, rfl⟩
        | cons u us => exact ih (by simp)

theorem writeParams_immediate (slots : List Nat) (args : List Value) :
    (writeParams slots args).Immediate := by
  induction slots generalizing args with
  | nil => exact .of_ok fun f => ⟨(), f, rfl⟩
  | cons slot slots ih =>
    cases args with
    | nil => exact .of_ok fun f => ⟨(), f, rfl⟩
    | cons v vs => exact .bind (.update _) fun _ => ih vs

theorem Body.enter_immediate (b : Body) (closure : Option (Nat × Frame)) (args : List Value) :
    (b.enter closure args).Immediate := by
  refine .bind (disclose_immediate _ _) fun _ => ?_
  split
  · exact .bind (.fault _) fun _ => writeParams_immediate _ _
  · exact writeParams_immediate _ _

/-! ## Records compose -/

namespace Records

variable {σ α β : Type} {stack : List String}

theorem of_ok {w : Run (Recorded σ) α} {m : Run σ α} {a : σ → α} (hm : ∀ s, m s = (.ok (a s), s))
    (hw : ∀ v, w v = (.ok (a v.state), v)) : Records stack w m := by
  intro s earlier past hpast
  rw [hm s]
  exact ⟨past, hw ⟨s, earlier ++ past⟩, hpast⟩

theorem pure (a : α) : Records stack (Pure.pure a : Run (Recorded σ) α) (Pure.pure a) :=
  of_ok (fun _ => rfl) (fun _ => rfl)

theorem bind {w : Run (Recorded σ) α} {m : Run σ α} {v : α → Run (Recorded σ) β}
    {k : α → Run σ β} (h : Records stack w m) (hk : ∀ a, Records stack (v a) (k a)) :
    Records stack (w >>= v) (m >>= k) := by
  intro s earlier past hpast
  obtain ⟨history, hw, hend⟩ := h s earlier past hpast
  rcases hm : m s with ⟨r, t⟩
  rw [hm] at hw hend
  cases r with
  | error e =>
    rw [bind_halt hm, bind_halt hw]
    refine ⟨history, rfl, ?_⟩
    cases e with
    | exhausted => trivial
    | fault f trace => cases f <;> exact hend
  | ok a =>
    rw [bind_ok hm, bind_ok hw]
    exact hk a t earlier history hend

/-- An operation that leaves no call is recorded, where the moments it is seen in enter and leave
none either. -/
theorem act {seen : σ → List Moment} {m : Run σ α} (hm : m.Immediate)
    (hseen : ∀ history s, activeCalls (history ++ seen s) = activeCalls history) :
    Records stack (Recorded.act seen stack m) m := by
  intro s earlier past hpast
  unfold Recorded.act
  rcases hr : m s with ⟨r, t⟩
  cases r with
  | ok a =>
    refine ⟨past ++ seen t, ?_, (hseen past t).trans hpast⟩
    rw [← List.append_assoc]
    rfl
  | error e =>
    refine ⟨past ++ seen t ++ e.moments, ?_, ?_⟩
    · rw [← List.append_assoc, ← List.append_assoc]
      cases e with
      | exhausted => rfl
      | fault f trace =>
        cases hm s t f trace hr
        cases f <;> rfl
    · cases e with
      | exhausted => trivial
      | fault f trace =>
        cases hm s t f trace hr
        cases f with
        | raised cause =>
          refine ⟨past ++ seen t, rfl, ?_⟩
          rw [hseen, hpast, List.nil_append]
        | _ => trivial

theorem step {m : Run Activation α} (hm : m.Immediate) :
    Records stack (Recorded.step stack m) m :=
  act hm fun history a => by simp [Moment.follow]

theorem check (x : Except Fault α) :
    Records stack (Recorded.step stack (Run.check x)) (Run.check x) :=
  step (.check x)

theorem plain {m : Run σ α} (hm : m.Immediate) : Records stack (Recorded.plain stack m) m :=
  act hm fun history _ => by rw [List.append_nil]

/-- A moment that neither enters nor leaves a call goes before any recorded run. -/
theorem note_bind {moment : σ → Moment} {w : Run (Recorded σ) α} {m : Run σ α}
    (hmoment : ∀ s, (moment s).follow stack = stack) (h : Records stack w m) :
    Records stack (Recorded.note moment >>= fun _ => w) m := by
  intro s earlier past hpast
  have noted := h s earlier (past ++ [moment s]) (by rw [activeCalls_append, hpast, hmoment])
  rw [← List.append_assoc] at noted
  exact noted

theorem onStore {w : Run (Recorded Store) α} {m : Run Store α} (h : Records stack w m) :
    Records stack (Recorded.onStore w) (Activation.onStore m) := by
  intro a earlier past hpast
  obtain ⟨history, hw, hend⟩ := h a.store earlier past hpast
  refine ⟨history, ?_, hend⟩
  simp only [Recorded.onStore, Activation.onStore, Run.focus, hw]

end Records

/-- An observer records a way of calling under every stack. -/
def Observer.Records (observe : Observer) (call : Caller) : Prop :=
  ∀ stack f args, TypedEval.Records stack (observe stack f args) (call f args)

/-! ## Evaluation -/

section

variable {observe : Observer} {call : Caller} (stack : List String)

theorem watchChecked_records (h : observe.Records call) (f : Function) (args : List Value)
    (result : Ty) :
    Records stack (watchChecked observe stack f args result) (callChecked call f args result) :=
  .bind (.onStore (h stack f args)) fun v => by
    split
    · exact .pure v
    · exact .step (.fault _)

mutual

theorem Node.watch_records (h : observe.Records call) :
    {family : Family} → (n : Node family) → Records stack (n.watch observe stack) (n.eval call)
  | _, .bool b => .pure b
  | _, .int n => .pure n
  | _, .float x => .pure x
  | _, .function f => .pure f
  | _, .constant v => .pure v
  | _, .read _ _ => .step (.read _)
  | _, .not a => .bind (Node.watch_records h a) fun _ => .pure _
  | _, .negateInt a => .bind (Node.watch_records h a) fun _ => .check _
  | _, .negateFloat a => .bind (Node.watch_records h a) fun _ => .pure _
  | _, .logic op a b => .bind (Node.watch_records h a) fun x => by
    cases op.decided? x with
    | some r => exact .pure r
    | none => exact .bind (Node.watch_records h b) fun _ => .pure _
  | _, .compareInt _ a b =>
    .bind (Node.watch_records h a) fun _ => .bind (Node.watch_records h b) fun _ => .pure _
  | _, .compareFloat _ a b =>
    .bind (Node.watch_records h a) fun _ => .bind (Node.watch_records h b) fun _ => .pure _
  | _, .arithInt _ a b =>
    .bind (Node.watch_records h a) fun _ => .bind (Node.watch_records h b) fun _ => .check _
  | _, .arithFloat _ a b =>
    .bind (Node.watch_records h a) fun _ => .bind (Node.watch_records h b) fun _ => .pure _
  | _, .cond test a b => .bind (Node.watch_records h test) fun x => by
    cases x with
    | false => exact Node.watch_records h b
    | true => exact Node.watch_records h a
  | _, .block bs body =>
    .bind (Bindings.watch_records h bs) fun _ => Node.watch_records h body
  | _, .call callee args _ =>
    .bind (Node.watch_records h callee) fun _ => .bind (Nodes.watch_records h args) fun _ =>
      .bind (watchChecked_records stack h _ _ _) fun _ => .check _
  | _, .index seq i _ =>
    .bind (Node.watch_records h seq) fun _ => .bind (.check _) fun _ =>
      .bind (Node.watch_records h i) fun _ => .check _
  | _, .slice seq slicer =>
    .bind (Node.watch_records h seq) fun _ => .bind (.check _) fun _ =>
      .bind (Node.watch_records h slicer) fun _ => .bind (.check _) fun _ =>
        .bind (.check _) fun _ => .bind (.check _) fun _ => .pure _
  | _, .array _ items =>
    .bind (Nodes.watchFill_records h items _) fun _ =>
      .bind (.step (.focus (.of_ok fun _ => ⟨_, _, rfl⟩))) fun _ => .pure _
  | _, .intRange first last step =>
    .bind (Part.watch_records h first) fun _ => .bind (Part.watch_records h last) fun _ =>
      .bind (Part.watch_records h step) fun _ => .bind (.check _) fun _ => .pure _
  | _, .floatRange first last step =>
    .bind (Part.watch_records h first) fun _ => .bind (Part.watch_records h last) fun _ =>
      .bind (Part.watch_records h step) fun _ => .bind (.check _) fun _ => .pure _
  | _, .define target capture => .step (instantiate_immediate target capture)

theorem Nodes.watch_records (h : observe.Records call) :
    (ns : Nodes) → Records stack (ns.watch observe stack) (ns.eval call)
  | .nil => .pure _
  | .cons _ n ns =>
    .bind (Node.watch_records h n) fun _ => .bind (Nodes.watch_records h ns) fun _ => .pure _

theorem Nodes.watchFill_records (h : observe.Records call) :
    (ns : Nodes) → (b : Builder) → Records stack (ns.watchFill observe stack b) (ns.fill call b)
  | .nil, _ => .pure _
  | .cons _ n ns, _ =>
    .bind (Node.watch_records h n) fun _ => .bind (.check _) fun b =>
      Nodes.watchFill_records h ns b

theorem Part.watch_records (h : observe.Records call) :
    {family : Family} → (p : Part family) → Records stack (p.watch observe stack) (p.eval call)
  | _, .none => .pure _
  | _, .some n => .bind (Node.watch_records h n) fun _ => .pure _

theorem Bindings.watch_records (h : observe.Records call) :
    (bs : Bindings) → Records stack (bs.watch observe stack) (bs.execute call)
  | .nil => .pure _
  | .bind _ _ n rest =>
    .bind (Node.watch_records h n) fun _ => .bind (.step (.focus (.update _))) fun _ =>
      Bindings.watch_records h rest
  | .bindRec slot n closureSlot rest =>
    .bind (Node.watch_records h n) fun _ => .bind (.step (.focus (.update _))) fun _ =>
      .bind (.step (tieKnot_immediate slot closureSlot)) fun _ =>
        .note_bind (fun _ => rfl) (Bindings.watch_records h rest)

end

theorem AnyNode.watch_records (h : observe.Records call) (n : AnyNode) :
    Records stack (n.watch observe stack) (n.eval call) :=
  .bind (Node.watch_records stack h n.node) fun _ => .pure _

theorem Script.watch_records (h : observe.Records call) {α : Type} (m : Script α) :
    Records stack (m.watch observe stack) (m.run call) := by
  induction m with
  | done a => exact .pure a
  | fail f => exact .plain (.fault f)
  | newStorage next ih => exact .bind (.plain (.of_ok fun s => ⟨_, _, rfl⟩)) ih
  | resolve f next ih => exact .bind (.plain (.read _)) fun _ => ih
  | call f args next ih => exact .bind (h stack f args) ih

end

/-! ## Calls -/

section

variable {observe : Observer} {call : Caller} (stack : List String)

theorem Body.watch_records (h : observe.Records call) (b : Body) (f : Function)
    (closure : Option (Nat × Frame)) (args : List Value) :
    Records stack (b.watch observe stack f closure args) (b.run call closure args) := by
  intro s earlier past hpast
  have entering : Records stack (Recorded.plain stack (b.enter closure args))
      (b.enter closure args) := .plain (b.enter_immediate closure args)
  obtain ⟨entered, hw, hend⟩ := entering (.allocate b.frame) earlier past hpast
  unfold Body.watch Body.run
  rw [hw]
  rcases he : b.enter closure args (.allocate b.frame) with ⟨r, frame⟩
  rw [he] at hend
  cases r with
  | error e =>
    refine ⟨entered, rfl, ?_⟩
    cases e with
    | exhausted => trivial
    | fault d trace => cases d <;> exact hend
  | ok u =>
    have active : activeCalls (entered ++ [.entered f args frame s]) = stack := by
      rw [activeCalls_append]
      exact hend
    obtain ⟨history, hbody, hrest⟩ :=
      AnyNode.watch_records stack h b.node ⟨frame, s⟩ earlier _ active
    rw [← List.append_assoc] at hbody
    refine ⟨history, ?_, hrest⟩
    simp only [mapError_ok, hbody]

theorem Code.watchEnter_records (code : Code) (h : observe.Records call) (f : Function)
    (args : List Value) :
    Records stack (code.watchEnter observe stack f args) (code.enter call f args) :=
  .bind (.plain (.read _)) fun closure => by
    cases code.routine? f.target with
    | none => exact .plain (.fault _)
    | some r =>
      cases r with
      | user body => exact Body.watch_records stack h body f closure args
      | native script =>
        cases closure with
        | none => exact Script.watch_records stack h _
        | some closure => exact .plain (.fault _)

end

/-- **Calls are recorded**: what is at the end of the trace of a cause that left the call is at the
top of the stack while the call is under way. -/
theorem Code.observe_records (code : Code) (depth : Nat) :
    (code.observe depth).Records (code.call depth) := by
  induction depth with
  | zero => exact fun stack f args s earlier past _ => ⟨past, rfl, trivial⟩
  | succ depth ih =>
    intro stack f args s earlier past hpast
    have active : activeCalls (past ++ [.called f args s]) = f.displayName :: stack := by
      rw [activeCalls_append, hpast]
      rfl
    obtain ⟨history, hw, hend⟩ :=
      Code.watchEnter_records (f.displayName :: stack) code ih f args s earlier _ active
    rw [← List.append_assoc] at hw
    have noted : (Recorded.note (.called f args) : Run (Recorded Store) Unit) ⟨s, earlier ++ past⟩
        = (.ok (), ⟨s, earlier ++ past ++ [.called f args s]⟩) := rfl
    unfold Code.observe
    rw [bind_ok noted]
    unfold Code.call Run.mapHalt
    rcases he : code.enter (code.call depth) f args s with ⟨r, t⟩
    rw [he] at hw hend
    cases r with
    | ok v =>
      refine ⟨history ++ [.returned f v t], (bind_ok hw).trans ?_, ?_⟩
      · rw [← List.append_assoc]
        rfl
      show activeCalls (history ++ [.returned f v t]) = stack
      rw [activeCalls_append, show activeCalls history = _ from hend]
      rfl
    | error e =>
      refine ⟨history, ?_, ?_⟩
      · rw [bind_halt hw]
        cases e with
        | exhausted => rfl
        | fault d trace =>
          cases d with
          | raised cause => simp [Halt.within, Halt.under, mapError_error]
          | _ => rfl
      · cases e with
        | exhausted => trivial
        | fault d trace =>
          cases d with
          | raised cause =>
            obtain ⟨before, rfl, htrace⟩ := hend
            exact ⟨before, rfl, by rw [← htrace, List.append_assoc]; rfl⟩
          | _ => trivial

/-! ## Calls not yet made, and callbacks -/

/-- Where a callee or an argument halts, the call is not made and the halt passes as it is. -/
theorem Node.eval_call_of_halt {call : Caller} {family : Family} {callee : Node .function}
    {args : Nodes} {result : Ty} {a b : Activation} {e : Halt}
    (h : callee.eval call a = (.error e, b) ∨
      ∃ f c, callee.eval call a = (.ok f, c) ∧ args.eval call c = (.error e, b)) :
    (Node.call callee args result : Node family).eval call a = (.error e, b) := by
  obtain hcallee | ⟨f, c, hcallee, hargs⟩ := h
  · exact bind_halt hcallee
  · exact (bind_ok hcallee).trans (bind_halt hargs)

/-- **How far a script has come**: the steps that it has finished, and the store after them. -/
inductive Script.Comes {α : Type} (call : Caller) : Script α → Store → Script α → Store → Prop where
  | refl (m : Script α) (s : Store) : Comes call m s m s
  | newStorage {next : Nat → Script α} {s t u : Store} {id : Nat} {m : Script α}
      (made : Store.newStorage s = (.ok id, t)) (rest : Comes call (next id) t m u) :
      Comes call (.newStorage next) s m u
  | resolve {f : Function} {closure : Option (Nat × Frame)} {next : Script α} {s t : Store}
      {m : Script α} (found : f.closureIn s = .ok closure) (rest : Comes call next s m t) :
      Comes call (.resolve f next) s m t
  | call {f : Function} {args : List Value} {next : Value → Script α} {s t u : Store} {v : Value}
      {m : Script α} (ended : call f args s = (.ok v, t)) (rest : Comes call (next v) t m u) :
      Comes call (.call f args next) s m u

/-- What has become of a script is what it will end in. -/
theorem Script.Comes.run_eq {α : Type} {call : Caller} {m n : Script α} {s t : Store}
    (h : Script.Comes call m s n t) : m.run call s = n.run call t := by
  induction h with
  | refl m s => rfl
  | newStorage made _ ih => exact (bind_ok made).trans ih
  | resolve found _ ih => exact (Script.run_resolve_ok call found).trans ih
  | call ended _ ih => exact (bind_ok ended).trans ih

/-- A cause that leaves a call has the name of its function last. -/
theorem Code.trace_of_call {code : Code} {depth : Nat} {f : Function} {args : List Value}
    {s t : Store} {cause : Cause} {trace : List String}
    (h : code.call depth f args s = (.error (.fault (.raised cause) trace), t)) :
    ∃ inner, trace = inner ++ [f.displayName] := by
  cases depth with
  | zero => cases h
  | succ depth =>
    unfold Code.call Run.mapHalt at h
    split at h
    · cases h
    · next e u _ =>
      cases e with
      | exhausted => cases h
      | fault d inner =>
        cases d with
        | raised c => cases h; exact ⟨inner, rfl⟩
        | _ => cases h

/-- **A cause raised in a callback** names the callback and then the builtin that called it. -/
theorem Code.call_of_callback {code : Code} {depth : Nat} {f g : Function}
    {args values : List Value} {script : Native} {next : Value → Script Value} {s t u : Store}
    {cause : Cause} {trace : List String} (hf : code.routine? f.target = some (.native script))
    (hplain : f.closure = none)
    (hcomes : Script.Comes (code.call depth) (script args) s (.call g values next) t)
    (hg : code.call depth g values t = (.error (.fault (.raised cause) trace), u)) :
    code.call (depth + 1) f args s
      = (.error (.fault (.raised cause) (trace ++ [f.displayName])), u) := by
  have run : (script args).run (code.call depth) s = (.error (.fault (.raised cause) trace), u) :=
    hcomes.run_eq.trans (bind_halt hg)
  have looked : (Run.read fun r : Store => liftM (f.closureIn r)) s = (.ok none, s) := by
    simp [Run.read, Run.check, Function.closureIn_of_none, Function.closureId?, hplain]
  have entered : code.enter (code.call depth) f args s = (.error (.fault (.raised cause) trace), u) := by
    rw [Code.enter, bind_ok looked]
    simp only [hf, Routine.run]
    exact run
  simp only [Code.call, Run.mapHalt, entered, Halt.within]

/-! ## Evaluations -/

theorem Halt.under_nil (e : Halt) : e.under [] = e := by
  cases e with
  | exhausted => rfl
  | fault f trace => cases f <;> simp [Halt.under]

/-- Where no call is under way, a recorded run ends as the plain one. -/
theorem Records.eq {σ α : Type} {w : Run (Recorded σ) α} {m : Run σ α} (h : Records [] w m) (s : σ)
    (earlier : List Moment) :
    ∃ history, w ⟨s, earlier⟩ = ((m s).1, ⟨(m s).2, earlier ++ history⟩) ∧
      EndsUnder [] history (m s).1 := by
  obtain ⟨history, hw, hend⟩ := h s earlier [] rfl
  rw [List.append_nil] at hw
  refine ⟨history, hw.trans ?_, hend⟩
  cases (m s).1 with
  | ok v => rfl
  | error e => rw [mapError_error, e.under_nil]

/-- **The watched evaluation is the plain one**, where no call is under way. -/
theorem Code.watch_eq_eval (code : Code) (depth : Nat) (n : AnyNode) (a : Activation)
    (earlier : List Moment) :
    ∃ history, code.watch depth n ⟨a, earlier⟩
        = ((code.eval depth n a).1, ⟨(code.eval depth n a).2, earlier ++ history⟩) ∧
      EndsUnder [] history (code.eval depth n a).1 :=
  (AnyNode.watch_records [] (code.observe_records depth) n).eq a earlier

/-- The same of a call that is made in an activation. -/
theorem Code.onStore_observe_eq_call (code : Code) (depth : Nat) (f : Function) (args : List Value)
    (a : Activation) (earlier : List Moment) :
    ∃ history, Recorded.onStore (code.observe depth [] f args) ⟨a, earlier⟩
        = ((Activation.onStore (code.call depth f args) a).1,
          ⟨(Activation.onStore (code.call depth f args) a).2, earlier ++ history⟩) ∧
      EndsUnder [] history (Activation.onStore (code.call depth f args) a).1 :=
  (Records.onStore (code.observe_records depth [] f args)).eq a earlier

/-- **Backtraces are the calls under way.** An evaluation ends as the one that carries the stack of
calls and takes it along where a cause is raised, in the same result and activation. The trace of a
raised cause is what the history shows before its last moment, the raising: the names of the calls
that were entered and not left, innermost first. So a cause raised in a callee or an argument does
not name the function that was to be called, and one raised in a callback names the callback and then
the builtin that called it. -/
theorem Code.eval_backtrace (code : Code) (depth : Nat) (n : AnyNode) (a : Activation) :
    (code.watch depth n ⟨a, []⟩).1 = (code.eval depth n a).1 ∧
    (code.watch depth n ⟨a, []⟩).2.state = (code.eval depth n a).2 ∧
    (∀ cause trace, (code.eval depth n a).1 = .error (.fault (.raised cause) trace) →
      ∃ before, (code.watch depth n ⟨a, []⟩).2.history = before ++ [.raised cause] ∧
        trace = activeCalls before) ∧
    (∀ (family : Family) (callee : Node .function) (args : Nodes) (result : Ty) (e : Halt)
      (b : Activation),
      (callee.eval (code.call depth) a = (.error e, b) ∨
        ∃ f c, callee.eval (code.call depth) a = (.ok f, c) ∧
          args.eval (code.call depth) c = (.error e, b)) →
      (Node.call callee args result : Node family).eval (code.call depth) a = (.error e, b)) ∧
    (∀ f g args values script next s t u cause trace,
      code.routine? f.target = some (.native script) → f.closure = none →
      Script.Comes (code.call depth) (script args) s (.call g values next) t →
      code.call depth g values t = (.error (.fault (.raised cause) trace), u) →
      (∃ inner, trace = inner ++ [g.displayName]) ∧
        code.call (depth + 1) f args s
          = (.error (.fault (.raised cause) (trace ++ [f.displayName])), u)) := by
  obtain ⟨history, watched, hend⟩ := code.watch_eq_eval depth n a []
  rw [List.nil_append] at watched
  refine ⟨by rw [watched], by rw [watched], ?_, ?_, ?_⟩
  · intro cause trace hraised
    rw [hraised] at hend
    obtain ⟨before, hhistory, htrace⟩ := hend
    refine ⟨before, by rw [watched]; exact hhistory, ?_⟩
    rw [← htrace, List.append_nil]
  · exact fun _ _ _ _ _ _ h => Node.eval_call_of_halt h
  · exact fun _ _ _ _ _ _ _ _ _ _ _ hf hplain hcomes hg =>
      ⟨Code.trace_of_call hg, Code.call_of_callback hf hplain hcomes hg⟩

/-! The callback `1 / n` fails on the second element of `[1, 0]`. -/

namespace Reciprocals

def target : Target := ⟨0, some "reciprocal", ⟨[.int], .int⟩, some .empty⟩

def body : Body where
  frame := ⟨#[⟨"n", .int⟩]⟩
  params := [0]
  disclosure := []
  node := ⟨.int, .arithInt .div (.int 1) (.read 0 .int)⟩

def map : Target := ⟨1, some "map", ⟨[.array .int, .function [.int] .int], .array .int⟩, none⟩

def code : Code := ⟨#[.user body, .native Builtin.map]⟩

/-- `map([1, 0], reciprocal)`. -/
def tree : AnyNode :=
  ⟨.reference, .call (.function (.plain map))
    (.cons .reference (.array .int (.cons .int (.int 1) (.cons .int (.int 0) .nil)))
      (.cons .function (.define target ⟨.empty, []⟩) .nil)) (.array .int)⟩

example : (code.eval 2 tree ⟨.allocate .empty, .empty⟩).1
    = .error (.fault (.raised .divisionByZero) ["reciprocal", "map"]) := by
  with_unfolding_all rfl

end Reciprocals

end TypedEval
