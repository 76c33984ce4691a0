import TypedEval.Proofs.Identity.Basic

/-!
# What is kept beside a run changes nothing

The evaluation that follows functions is the plain one with something beside it (`Code.trace_eval`):
each of its runs `Follows` a plain run, in its states and in its values. The relation composes along
`>>=`, and what only looks at labels or writes to the ledger has no counterpart.
-/

namespace TypedEval

open Traced

/-- **A followed run is a plain one** with something beside it: `state` and `value` say what is plain
about its states and values. -/
def Follows {σ τ α β : Type} (state : σ → τ) (value : β → α) (w : Run (Traced σ) β) (m : Run τ α) :
    Prop :=
  ∀ s, m (state s.state) = ((w s).1.map value, state (w s).2.state)

namespace Follows

variable {σ τ α β γ δ : Type} {state : σ → τ} {value : β → α} {image : δ → γ}

theorem pure (b : β) :
    Follows state value (Pure.pure b : Run (Traced σ) β) (Pure.pure (value b)) :=
  fun _ => rfl

theorem bind {w : Run (Traced σ) β} {m : Run τ α} {k : β → Run (Traced σ) δ} {l : α → Run τ γ}
    (h : Follows state value w m) (hk : ∀ b, Follows state image (k b) (l (value b))) :
    Follows state image (w >>= k) (m >>= l) := by
  intro s
  have hs := h s
  rcases hw : w s with ⟨r, t⟩
  rw [hw] at hs
  cases r with
  | error e => rw [Run.bind_halt hs, Run.bind_halt hw]; rfl
  | ok b => rw [Run.bind_ok hs, Run.bind_ok hw]; exact hk b t

/-- What comes after the counterpart has ended. -/
theorem last {w : Run (Traced σ) β} {m : Run τ α} {k : β → Run (Traced σ) δ} {image : δ → α}
    (h : Follows state value w m) (hk : ∀ b, Follows state image (k b) (Pure.pure (value b))) :
    Follows state image (w >>= k) m := by
  rw [← bind_pure m]
  exact .bind h hk

/-- What only looks at labels, or writes labels or the ledger, has no counterpart. -/
theorem aside {w : Run (Traced σ) β} {k : β → Run (Traced σ) δ} {m : Run τ γ}
    (h : ∀ s, ∃ b t, w s = (.ok b, t) ∧ state t.state = state s.state)
    (hk : ∀ b, Follows state image (k b) m) : Follows state image (w >>= k) m := by
  intro s
  obtain ⟨b, t, hw, ht⟩ := h s
  rw [Run.bind_ok hw, ← ht]
  exact hk b t

theorem aside_last {w : Run (Traced σ) Unit} {f : Unit → Unit}
    (h : ∀ s, ∃ t, w s = (.ok (), t) ∧ state t.state = state s.state) :
    Follows state f w (Pure.pure () : Run τ Unit) := by
  intro s
  obtain ⟨t, hw, ht⟩ := h s
  rw [hw, ht]
  rfl

theorem plain (m : Run σ α) : Follows id id (Traced.plain m) m := by
  intro s
  rcases hm : m s.state with ⟨r, t⟩
  simp only [Traced.plain, Run.focus, id_eq, hm]
  cases r <;> rfl

theorem act (m : Run Activation α) : Follows Labelled.activation id (Traced.act m) m := by
  intro s
  rcases hm : m s.state.activation with ⟨r, t⟩
  simp only [Traced.act, Traced.plain, Run.focus, hm]
  cases r <;> rfl

theorem onStore {w : Run (Traced Store) β} {m : Run Store α} (h : Follows id value w m) :
    Follows Labelled.activation value (Traced.onStore w) (Activation.onStore m) := by
  intro s
  have hs := h ⟨s.state.activation.store, s.ledger⟩
  rcases hw : w ⟨s.state.activation.store, s.ledger⟩ with ⟨r, t⟩
  rw [hw] at hs
  simp only [id_eq] at hs
  simp only [Traced.onStore, Activation.onStore, Run.focus, hs, hw]

theorem mapHalt {w : Run (Traced σ) β} {m : Run τ α} (h : Follows state value w m)
    (f : Halt → Halt) : Follows state value (w.mapHalt f) (m.mapHalt f) := by
  intro s
  have hs := h s
  rcases hw : w s with ⟨r, t⟩
  rw [hw] at hs
  simp only [Run.mapHalt, hs, hw]
  cases r <;> rfl

theorem read (family : Family) (slot : Nat) :
    Follows Labelled.activation Prod.fst (Traced.read family slot)
      (Activation.readFrame (·.readAs family slot)) :=
  .last (.act _) fun _ => .aside (fun s => ⟨_, s, rfl, rfl⟩) fun _ =>
    .aside (fun _ => ⟨_, _, rfl, rfl⟩) fun _ => .pure _

theorem write (slot : Nat) (family : Family) (x : Carrier family) (os : Origins) :
    Follows Labelled.activation id (Traced.write slot family x os)
      (Activation.updateFrame (·.writeAs slot family x)) :=
  .last (.act _) fun _ => .aside_last fun _ => ⟨_, rfl, rfl⟩

theorem define (target : Target) (capture : Capture) :
    Follows Labelled.activation Prod.fst (Traced.define target capture)
      (instantiate target capture) := by
  intro s
  rcases h : instantiate target capture s.state.activation with ⟨r, a⟩
  simp only [Traced.define, h]
  cases r <;> rfl

theorem ensure (slot : Nat) (f : Function) (os : Origins) :
    Follows Labelled.activation (fun r => (r.1, r.2.1)) (Traced.ensure slot f os)
      (ensureClosure slot f) := by
  refine .bind (.act _) fun r => ?_
  cases r with
  | some r => exact .pure _
  | none =>
    simp only [id_eq]
    cases f.target.closure with
    | none => exact .bind (.act _) fun s => fun _ => rfl
    | some layout =>
      refine .bind (.act _) fun id => .aside (fun _ => ⟨_, _, rfl, rfl⟩) fun os => ?_
      exact .bind (.write slot .function _ os) fun _ => .pure _

theorem tie (slot closureSlot : Nat) :
    Follows Labelled.activation id (Traced.tie slot closureSlot) (tieKnot slot closureSlot) := by
  refine .bind (.act _) fun f => .aside (fun s => ⟨_, s, rfl, rfl⟩) fun os => ?_
  exact .bind (.ensure slot f os) fun ⟨_, _, _⟩ =>
    .last (.act _) fun _ => .aside_last fun _ => ⟨_, rfl, rfl⟩

end Follows

/-- A way of calling that follows functions calls them as the plain one does. -/
def Tracer.Follows (trace : Tracer) (call : Caller) : Prop :=
  ∀ (f : Function) (os : Origins) (args : List (Value × Origins)),
    TypedEval.Follows id Prod.fst (trace f os args) (call f (args.map Prod.fst))

section

variable {trace : Tracer} {call : Caller}

theorem traceChecked_follows (h : trace.Follows call) (f : Function) (os : Origins)
    (args : List (Value × Origins)) (result : Ty) :
    Follows Labelled.activation Prod.fst (traceChecked trace f os args result)
      (callChecked call f (args.map Prod.fst) result) := by
  refine .bind (.onStore (h f os args)) fun ⟨v, ps⟩ => ?_
  simp only
  split
  · exact .pure (v, ps)
  · exact fun _ => rfl

mutual

theorem Node.trace_follows (h : trace.Follows call) : {family : Family} → (n : Node family) →
    Follows Labelled.activation Prod.fst (n.trace trace) (n.eval call)
  | _, .bool _ | _, .int _ | _, .float _ | _, .function _ | _, .constant _ => .pure _
  | family, .read slot _ => .read family slot
  | _, .not a => .bind (Node.trace_follows h a) fun _ => .pure _
  | _, .negateInt a =>
    .bind (Node.trace_follows h a) fun _ => .last (.act _) fun _ => .pure _
  | _, .negateFloat a => .bind (Node.trace_follows h a) fun _ => .pure _
  | _, .logic op a b => .bind (Node.trace_follows h a) fun ⟨x, _⟩ => by
    simp only
    cases op.decided? x with
    | some r => exact .pure (r, ∅)
    | none => exact .bind (Node.trace_follows h b) fun _ => .pure _
  | _, .compareInt _ a b =>
    .bind (Node.trace_follows h a) fun _ => .bind (Node.trace_follows h b) fun _ => .pure _
  | _, .compareFloat _ a b =>
    .bind (Node.trace_follows h a) fun _ => .bind (Node.trace_follows h b) fun _ => .pure _
  | _, .arithInt _ a b =>
    .bind (Node.trace_follows h a) fun _ => .bind (Node.trace_follows h b) fun _ =>
      .last (.act _) fun _ => .pure _
  | _, .arithFloat _ a b =>
    .bind (Node.trace_follows h a) fun _ => .bind (Node.trace_follows h b) fun _ => .pure _
  | _, .cond test a b => .bind (Node.trace_follows h test) fun ⟨x, _⟩ => by
    cases x with
    | false => exact Node.trace_follows h b
    | true => exact Node.trace_follows h a
  | _, .block bs body =>
    .bind (Bindings.trace_follows h bs) fun _ => Node.trace_follows h body
  | _, .call callee args result =>
    .bind (Node.trace_follows h callee) fun _ => .bind (Nodes.trace_follows h args) fun _ =>
      .bind (traceChecked_follows h _ _ _ result) fun _ => .last (.act _) fun _ => .pure _
  | _, .index seq i _ =>
    .bind (Node.trace_follows h seq) fun _ => .bind (.act _) fun _ =>
      .bind (Node.trace_follows h i) fun _ => .last (.act _) fun _ => .pure _
  | _, .slice seq slicer =>
    .bind (Node.trace_follows h seq) fun _ => .bind (.act _) fun _ =>
      .bind (Node.trace_follows h slicer) fun _ => .bind (.act _) fun _ =>
        .bind (.act _) fun _ => .bind (.act _) fun _ => .pure _
  | _, .array _ items =>
    .bind (Nodes.traceFill_follows h items _ _) fun _ => .bind (.act _) fun _ => .pure _
  | _, .intRange first last step =>
    .bind (Part.trace_follows h first) fun _ => .bind (Part.trace_follows h last) fun _ =>
      .bind (Part.trace_follows h step) fun _ => .bind (.act _) fun _ => .pure _
  | _, .floatRange first last step =>
    .bind (Part.trace_follows h first) fun _ => .bind (Part.trace_follows h last) fun _ =>
      .bind (Part.trace_follows h step) fun _ => .bind (.act _) fun _ => .pure _
  | _, .define target capture => .define target capture

theorem Nodes.trace_follows (h : trace.Follows call) : (ns : Nodes) →
    Follows Labelled.activation (List.map Prod.fst) (ns.trace trace) (ns.eval call)
  | .nil => .pure _
  | .cons _ n ns =>
    .bind (Node.trace_follows h n) fun _ => .bind (Nodes.trace_follows h ns) fun _ => .pure _

theorem Nodes.traceFill_follows (h : trace.Follows call) :
    (ns : Nodes) → (b : Builder) → (os : Origins) →
      Follows Labelled.activation Prod.fst (ns.traceFill trace b os) (ns.fill call b)
  | .nil, _, _ => .pure _
  | .cons _ n ns, _, _ =>
    .bind (Node.trace_follows h n) fun _ => .bind (.act _) fun b =>
      Nodes.traceFill_follows h ns b _

theorem Part.trace_follows (h : trace.Follows call) : {family : Family} → (p : Part family) →
    Follows Labelled.activation id (p.trace trace) (p.eval call)
  | _, .none => .pure _
  | _, .some n => .bind (Node.trace_follows h n) fun _ => .pure _

theorem Bindings.trace_follows (h : trace.Follows call) : (bs : Bindings) →
    Follows Labelled.activation id (bs.trace trace) (bs.execute call)
  | .nil => .pure _
  | .bind _ _ n rest =>
    .bind (Node.trace_follows h n) fun _ => .bind (.write _ _ _ _) fun _ =>
      Bindings.trace_follows h rest
  | .bindRec slot n closureSlot rest =>
    .bind (Node.trace_follows h n) fun _ => .bind (.write slot .function _ _) fun _ =>
      .bind (.tie slot closureSlot) fun _ => Bindings.trace_follows h rest

end

theorem AnyNode.trace_follows (h : trace.Follows call) (n : AnyNode) :
    Follows Labelled.activation Prod.fst (n.trace trace) (n.eval call) :=
  .bind (Node.trace_follows h n.node) fun _ => .pure _

theorem Script.trace_follows (h : trace.Follows call) (m : Script Value) (given : Origins) :
    Follows id Prod.fst (m.trace trace given) (m.run call) := by
  induction m generalizing given with
  | done v => exact .pure _
  | fail f => exact fun _ => rfl
  | newStorage next ih => exact .bind (.plain _) fun id => ih id given
  | resolve f next ih => exact .bind (.plain _) fun _ => ih given
  | call f args next ih =>
    have called := h f given.handedOn (args.map fun v => (v, given.handedOn))
    simp only [List.map_map, Function.comp_def, List.map_id'] at called
    exact .bind called fun ⟨v, os⟩ => ih v _

theorem Body.trace_follows (h : trace.Follows call) (b : Body) (closure : Option (Nat × Frame))
    (args : List (Value × Origins)) :
    Follows id Prod.fst (b.trace trace closure args) (b.run call closure (args.map Prod.fst)) := by
  intro s
  unfold Body.trace Body.run
  rcases b.enter closure (args.map Prod.fst) (.allocate b.frame) with ⟨r, frame⟩
  cases r with
  | error e => rfl
  | ok _ =>
    have body := AnyNode.trace_follows h b.node ⟨⟨⟨frame, s.state⟩,
      b.labels s.ledger.closures closure (args.map Prod.snd)⟩, s.ledger⟩
    simp only [id_eq] at body ⊢
    rw [body]

theorem Code.traceEnter_follows (code : Code) (h : trace.Follows call) (f : Function)
    (args : List (Value × Origins)) :
    Follows id Prod.fst (code.traceEnter trace f args) (code.enter call f (args.map Prod.fst)) := by
  refine .bind (.plain _) fun closure => ?_
  cases code.routine? f.target with
  | none => exact fun _ => rfl
  | some routine =>
    cases routine with
    | user body => exact Body.trace_follows h body closure args
    | native script =>
      cases closure with
      | none => exact Script.trace_follows h _ _
      | some closure => exact fun _ => rfl

end

theorem Code.tracer_follows (code : Code) (depth : Nat) :
    (code.tracer depth).Follows (code.call depth) := by
  induction depth with
  | zero => exact fun _ _ _ _ => rfl
  | succ depth ih =>
    intro f os args
    refine .aside (fun _ => ⟨_, _, rfl, rfl⟩) fun _ => ?_
    exact .last ((Code.traceEnter_follows code ih f args).mapHalt _) fun _ =>
      .aside (fun _ => ⟨_, _, rfl, rfl⟩) fun _ => .pure _

/-- **The evaluation that follows functions is the plain one.** -/
theorem Code.trace_eval (code : Code) (depth : Nat) (n : AnyNode) :
    Follows Labelled.activation Prod.fst (code.trace depth n) (code.eval depth n) :=
  .last (AnyNode.trace_follows (code.tracer_follows depth) n) fun _ =>
    .aside (fun _ => ⟨_, _, rfl, rfl⟩) fun _ => .pure _

end TypedEval
