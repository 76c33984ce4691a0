import TypedEval.Proofs.Identity.Erasure
import TypedEval.Proofs.Identity.Instances

/-!
# The identity of functions

Whether two functions are the same instance is read off their targets and their closures. The law
(`Code.trace_instances`): along every evaluation, a function that comes from one instance is that
instance, wherever it was read, captured, disclosed, passed or returned; and functions that come from
two instances are told apart, except where both are of one definition that captures nothing. Then
neither has a closure, and nothing is left that could tell them apart.

An evaluation is made of operations that keep account of labels and ledger (`Traced.Kept`), so it does
(`Node.trace_kept`, `Code.tracer_kept`), and a ledger so kept tells functions apart.
-/

namespace TypedEval

open Traced

/-- **A way of calling keeps account**: called with what is accounted for, it returns such a value. -/
def Tracer.Keeps (trace : Tracer) : Prop :=
  ∀ (f : Function) (os : Origins) (args : List (Value × Origins)) (w : Traced Store), w.InStore →
    (Value.function f).Accounted os w.ledger.instances →
    (∀ a ∈ args, a.1.Accounted a.2 w.ledger.instances) →
    (trace f os args).Obeys .tracedStore w fun r u => r.1.Accounted r.2 u.ledger.instances

section

variable {trace : Tracer} {w : Traced Labelled}

theorem traceChecked_kept (htrace : trace.Keeps) (hw : w.Kept) {f : Function} {os : Origins}
    {args : List (Value × Origins)} (hf : (Value.function f).Accounted os w.ledger.instances)
    (hargs : ∀ a ∈ args, a.1.Accounted a.2 w.ledger.instances) (result : Ty) :
    (traceChecked trace f os args result).Obeys .traced w
      fun r u => r.1.Accounted r.2 u.ledger.instances := by
  refine .bind (onStore_kept hw (htrace f os args _ hw.store hf hargs)) ?_
  rintro ⟨v, ps⟩ u hu - hv
  simp only
  split
  · exact .pure hu hv
  · exact act_fault hu _

/-! ## The tree -/

mutual

/-- **A node hands over what is accounted for.** -/
theorem Node.trace_kept (htrace : trace.Keeps) : {family : Family} → (n : Node family) →
    (w : Traced Labelled) → w.Kept → (n.trace trace).Obeys .traced w
      fun x u => (family.box x.1).Accounted x.2 u.ledger.instances
  | _, .bool _, _, hw => .pure hw (Value.accounted_primitive rfl)
  | _, .int _, _, hw => .pure hw (Value.accounted_primitive rfl)
  | _, .float _, _, hw => .pure hw (Value.accounted_primitive rfl)
  | _, .function f, _, hw => .pure hw (Value.accounted_outside (.function f))
  | _, .constant v, _, hw => .pure hw v.accounted_outside
  | family, .read slot _, _, hw => read_kept hw family slot
  | _, .not a, w, hw =>
    .bind (Node.trace_kept htrace a w hw) fun _ _ hu _ _ =>
      .pure hu (Value.accounted_primitive rfl)
  | _, .negateInt a, w, hw =>
    .bind (Node.trace_kept htrace a w hw) fun _ _ hu _ _ =>
      .bind (act_check hu _) fun _ _ hv _ _ => .pure hv (Value.accounted_primitive rfl)
  | _, .negateFloat a, w, hw =>
    .bind (Node.trace_kept htrace a w hw) fun _ _ hu _ _ =>
      .pure hu (Value.accounted_primitive rfl)
  | _, .logic op a b, w, hw =>
    .bind (Node.trace_kept htrace a w hw) fun ⟨x, _⟩ u hu _ _ => by
      simp only
      cases op.decided? x with
      | some r => exact .pure hu (Value.accounted_primitive rfl)
      | none =>
        exact .bind (Node.trace_kept htrace b u hu) fun _ _ hv _ _ =>
          .pure hv (Value.accounted_primitive rfl)
  | _, .compareInt _ a b, w, hw =>
    .bind (Node.trace_kept htrace a w hw) fun _ u hu _ _ =>
      .bind (Node.trace_kept htrace b u hu) fun _ _ hv _ _ =>
        .pure hv (Value.accounted_primitive rfl)
  | _, .compareFloat _ a b, w, hw =>
    .bind (Node.trace_kept htrace a w hw) fun _ u hu _ _ =>
      .bind (Node.trace_kept htrace b u hu) fun _ _ hv _ _ =>
        .pure hv (Value.accounted_primitive rfl)
  | _, .arithInt _ a b, w, hw =>
    .bind (Node.trace_kept htrace a w hw) fun _ u hu _ _ =>
      .bind (Node.trace_kept htrace b u hu) fun _ _ hv _ _ =>
        .bind (act_check hv _) fun _ _ ht _ _ => .pure ht (Value.accounted_primitive rfl)
  | _, .arithFloat _ a b, w, hw =>
    .bind (Node.trace_kept htrace a w hw) fun _ u hu _ _ =>
      .bind (Node.trace_kept htrace b u hu) fun _ _ hv _ _ =>
        .pure hv (Value.accounted_primitive rfl)
  | _, .cond test a b, w, hw =>
    .bind (Node.trace_kept htrace test w hw) fun ⟨x, _⟩ u hu _ _ => by
      cases x with
      | true => exact Node.trace_kept htrace a u hu
      | false => exact Node.trace_kept htrace b u hu
  | _, .block bindings body, w, hw =>
    .bind (Bindings.trace_kept htrace bindings w hw) fun _ u hu _ _ =>
      Node.trace_kept htrace body u hu
  | family, .call callee args result, w, hw => by
    refine .bind (Node.trace_kept htrace callee w hw) fun ⟨f, os⟩ u hu _ hf => ?_
    refine .bind (Nodes.trace_kept htrace args u hu) fun values v hv onward hvalues => ?_
    refine .bind (traceChecked_kept htrace hv (hf.mono onward) hvalues result)
      fun ⟨r, ps⟩ t ht _ hr => ?_
    refine .bind (act_check ht _) ?_
    rintro x s hs - ⟨hx, rfl⟩
    exact .pure hs (hr.of_holds (hr.covered.unbox (lift_defect_eq_ok.mp hx)))
  | family, .index seq i _, w, hw => by
    refine .bind (Node.trace_kept htrace seq w hw) fun ⟨value, os⟩ u hu _ hvalue => ?_
    refine .bind (act_check hu _) ?_
    rintro view v hv - ⟨hview, rfl⟩
    refine .bind (Node.trace_kept htrace i v hv) fun ⟨k, _⟩ t ht onward _ => ?_
    refine .bind (act_check ht _) ?_
    rintro x s hs - ⟨hx, rfl⟩
    have cells := hvalue.covered.view (lift_defect_eq_ok.mp hview)
    exact .pure hs ((hvalue.mono onward).of_holds
      (ViewOf.each_getAs Value.holds_of_primitive cells hx))
  | _, .slice seq slicer, w, hw => by
    refine .bind (Node.trace_kept htrace seq w hw) fun ⟨value, os⟩ u hu _ hvalue => ?_
    refine .bind (act_check hu _) ?_
    rintro view v hv - ⟨hview, rfl⟩
    refine .bind (Node.trace_kept htrace slicer v hv) fun ⟨_, _⟩ t ht onward _ => ?_
    refine .bind (act_check ht _) fun _ q hq later _ => .bind (act_check hq _) fun _ r hr last _ => ?_
    refine .bind (act_check hr _) ?_
    rintro cut s hs - ⟨hcut, rfl⟩
    have cells := hvalue.covered.view (lift_defect_eq_ok.mp hview)
    refine .pure hs ((hvalue.mono ((onward.trans later).trans last)).of_holds (.slice fun y hy => ?_))
    rw [ViewOf.array_of_slice hcut] at hy
    exact cells y hy
  | _, .array element items, w, hw => by
    refine .bind (Nodes.traceFill_kept htrace items (.new element) ∅ w hw
      (Storage.each_empty _) Origins.right_empty) fun ⟨b, os⟩ u hu _ ⟨hb, hos⟩ => ?_
    refine .bind (Traced.newStorage_kept hu) fun id v hv _ same => .pure hv ?_
    rw [same]
    exact ⟨.array hb, hos⟩
  | _, .intRange first last step, w, hw =>
    .bind (Part.trace_kept htrace first w hw) fun _ u hu _ _ =>
      .bind (Part.trace_kept htrace last u hu) fun _ v hv _ _ =>
        .bind (Part.trace_kept htrace step v hv) fun _ _ ht _ _ =>
          .bind (act_check ht _) fun r _ hs _ _ => .pure hs ⟨.range (.int r), Origins.right_empty⟩
  | _, .floatRange first last step, w, hw =>
    .bind (Part.trace_kept htrace first w hw) fun _ u hu _ _ =>
      .bind (Part.trace_kept htrace last u hu) fun _ v hv _ _ =>
        .bind (Part.trace_kept htrace step v hv) fun _ _ ht _ _ =>
          .bind (act_check ht _) fun r _ hs _ _ =>
            .pure hs ⟨.range (.float r), Origins.right_empty⟩
  | _, .define target capture, _, hw => define_kept hw target capture

theorem Nodes.trace_kept (htrace : trace.Keeps) : (ns : Nodes) → (w : Traced Labelled) → w.Kept →
    (ns.trace trace).Obeys .traced w
      fun vs u => ∀ a ∈ vs, a.1.Accounted a.2 u.ledger.instances
  | .nil, _, hw => .pure hw fun _ h => (nomatch h)
  | .cons _ n ns, w, hw =>
    .bind (Node.trace_kept htrace n w hw) fun _ u hu _ hx =>
      .bind (Nodes.trace_kept htrace ns u hu) fun _ _ hv onward hvs =>
        .pure hv (List.forall_mem_cons.mpr ⟨hx.mono onward, hvs⟩)

theorem Nodes.traceFill_kept (htrace : trace.Keeps) : (ns : Nodes) → (b : Builder) →
    (os : Origins) → (w : Traced Labelled) → w.Kept →
    b.storage.Each (Value.Holds fun f => ∃ s, (f, s) ∈ os) → os.Right w.ledger.instances →
    (ns.traceFill trace b os).Obeys .traced w fun r u =>
      r.1.storage.Each (Value.Holds fun f => ∃ s, (f, s) ∈ r.2) ∧ r.2.Right u.ledger.instances
  | .nil, _, _, _, hw, hb, hos => .pure hw ⟨hb, hos⟩
  | .cons _ n ns, b, os, w, hw, hb, hos => by
    refine .bind (Node.trace_kept htrace n w hw) fun ⟨x, ps⟩ u hu onward hx => ?_
    refine .bind (act_check hu _) ?_
    rintro c v hv - ⟨hc, rfl⟩
    have wider {qs : Origins} (hqs : qs ⊆ os ∪ ps) {y : Value}
        (hy : y.Holds fun f => ∃ s, (f, s) ∈ qs) : y.Holds fun f => ∃ s, (f, s) ∈ os ∪ ps :=
      hy.imp fun _ ⟨s, hs⟩ => ⟨s, hqs hs⟩
    refine Nodes.traceFill_kept htrace ns c (os ∪ ps) v hv ?_ ((hos.mono onward).union hx.right)
    exact Builder.each_pushAs (fun y hy => wider Set.subset_union_left (hb y hy))
      (wider Set.subset_union_right hx.covered) hc

theorem Part.trace_kept (htrace : trace.Keeps) : {family : Family} → (p : Part family) →
    (w : Traced Labelled) → w.Kept → (p.trace trace).Obeys .traced w fun _ _ => True
  | _, .none, _, hw => .pure hw trivial
  | _, .some n, w, hw =>
    .bind (Node.trace_kept htrace n w hw) fun _ _ hu _ _ => .pure hu trivial

theorem Bindings.trace_kept (htrace : trace.Keeps) : (bs : Bindings) → (w : Traced Labelled) →
    w.Kept → (bs.trace trace).Obeys .traced w fun _ _ => True
  | .nil, _, hw => .pure hw trivial
  | .bind family _ n rest, w, hw =>
    .bind (Node.trace_kept htrace n w hw) fun _ _ hu _ hx =>
      .bind (write_kept hu family hx) fun _ v hv _ _ => Bindings.trace_kept htrace rest v hv
  | .bindRec slot n closureSlot rest, w, hw =>
    .bind (Node.trace_kept htrace n w hw) fun _ _ hu _ hf =>
      .bind (write_kept hu .function hf) fun _ _ hv _ _ =>
        .bind (tie_kept hv slot closureSlot) fun _ t ht _ _ =>
          Bindings.trace_kept htrace rest t ht

end

theorem AnyNode.trace_kept (htrace : trace.Keeps) (n : AnyNode) (hw : w.Kept) :
    (n.trace trace).Obeys .traced w fun r u => r.1.Accounted r.2 u.ledger.instances :=
  .bind (Node.trace_kept htrace n.node w hw) fun _ _ hu _ hx => .pure hu hx

end

/-! ## Calls -/

section

variable {trace : Tracer} {w : Traced Store}

theorem plain_look {α : Type} (hw : w.InStore) {m : Run Store α} (h : (m w.state).2 = w.state) :
    (plain m).Obeys .tracedStore w fun v u => (m w.state).1 = .ok v ∧ u = w := by
  rcases hm : m w.state with ⟨r, s⟩
  rw [hm] at h
  simp only at h
  subst h
  have run : plain m w = (r, w) := by simp only [plain, Run.focus, hm]
  cases r with
  | ok v => exact .of_ok run hw List.prefix_rfl ⟨rfl, rfl⟩
  | error e => exact .of_halt run hw List.prefix_rfl trivial

theorem plain_read {α : Type} (hw : w.InStore) (f : Store → Except Fault α) :
    (plain (Run.read f)).Obeys .tracedStore w fun v u => f w.state = .ok v ∧ u = w := by
  have same : (Run.read f w.state).2 = w.state := by
    cases h : f w.state <;> simp only [Run.read, Run.check, h]
  refine (plain_look hw same).imp fun v _ looked => ⟨?_, looked.2⟩
  have hv := looked.1
  cases h : f w.state with
  | ok x =>
    simp only [Run.read, Run.check, h, Except.ok.injEq] at hv
    rw [hv]
  | error e =>
    simp only [Run.read, Run.check, h] at hv
    cases hv

theorem plain_fault {α : Type} (hw : w.InStore) (f : Fault) {p : α → Traced Store → Prop} :
    (plain (Run.fault f : Run Store α)).Obeys .tracedStore w p :=
  (plain_look hw rfl).imp fun _ _ ⟨h, _⟩ => (nomatch h)

/-- **A host function is followed from outside**: what it calls, passes and returns comes from where it
was given, or from outside. -/
theorem Script.trace_kept (htrace : trace.Keeps) (m : Script Value) {given : Origins}
    (hgiven : given.Right w.ledger.instances) (hw : w.InStore) :
    (m.trace trace given).Obeys .tracedStore w fun r u => r.1.Accounted r.2 u.ledger.instances := by
  induction m generalizing given w with
  | done v => exact .pure hw (Value.accounted_handedOn hgiven v)
  | fail f => exact plain_fault hw f
  | newStorage next ih =>
    have made : (plain Store.newStorage).Obeys .tracedStore w fun _ u => u.ledger = w.ledger :=
      .of_ok (t := ⟨(Store.newStorage w.state).2, w.ledger⟩) rfl hw.newStorage List.prefix_rfl rfl
    refine .bind made fun id u hu _ same => ih id ?_ hu
    rw [same]
    exact hgiven
  | resolve f next ih =>
    refine .bind (plain_read hw _) ?_
    rintro c u hu - ⟨-, rfl⟩
    exact ih hgiven hu
  | call f args next ih =>
    refine .bind (htrace f _ _ w hw (Value.accounted_handedOn hgiven _) fun a ha => ?_)
      fun ⟨v, os⟩ u hu onward hv => ih v ((hgiven.mono onward).union hv.right) hu
    obtain ⟨v, -, rfl⟩ := List.mem_map.mp ha
    exact Value.accounted_handedOn hgiven v

theorem Body.trace_kept (htrace : trace.Keeps) (b : Body) {closure : Option (Nat × Frame)}
    {args : List (Value × Origins)} (hw : w.InStore)
    (hclosure : ∀ id frame, closure = some (id, frame) → w.state.closures[id]? = some frame)
    (hargs : ∀ a ∈ args, a.1.Accounted a.2 w.ledger.instances) :
    (b.trace trace closure args).Obeys .tracedStore w
      fun r u => r.1.Accounted r.2 u.ledger.instances := by
  rcases henter : b.enter closure (args.map Prod.fst) (.allocate b.frame) with ⟨r, frame⟩
  cases r with
  | error e =>
    exact .of_halt (e := e) (by simp only [Body.trace, henter]) hw List.prefix_rfl trivial
  | ok _ =>
    have started := Body.enter_accounted
      (fun id frame h => hw.closures id frame (hclosure id frame h)) hargs henter
    let labels := b.labels w.ledger.closures closure (args.map Prod.snd)
    let start : Traced Labelled := ⟨⟨⟨frame, w.state⟩, labels⟩, w.ledger⟩
    have evaluated := AnyNode.trace_kept htrace b.node (w := start) ⟨started, hw⟩
    rcases heval : b.node.trace trace start with ⟨r, u⟩
    have run : b.trace trace closure args w = (r, u.inStore) := by
      simp only [Body.trace, henter]
      rw [heval]
      rfl
    cases r with
    | ok v =>
      obtain ⟨hu, onward, hv⟩ := evaluated.ok heval
      exact .of_ok run hu.store onward hv
    | error e =>
      obtain ⟨hu, onward, -⟩ := evaluated.halt heval
      exact .of_halt run hu.store onward trivial

theorem Code.traceEnter_kept (code : Code) (htrace : trace.Keeps) (f : Function)
    {args : List (Value × Origins)} (hw : w.InStore)
    (hargs : ∀ a ∈ args, a.1.Accounted a.2 w.ledger.instances) :
    (code.traceEnter trace f args).Obeys .tracedStore w
      fun r u => r.1.Accounted r.2 u.ledger.instances := by
  refine .bind (plain_read hw _) ?_
  rintro closure u hu - ⟨hclosure, rfl⟩
  have hclosure := lift_defect_eq_ok.mp hclosure
  cases code.routine? f.target with
  | none => exact plain_fault hu _
  | some routine =>
    cases routine with
    | user body =>
      refine Body.trace_kept htrace body hu ?_ hargs
      rintro id frame rfl
      exact (Function.closure_of_closureIn hclosure).2
    | native script =>
      cases closure with
      | some closure => exact plain_fault hu _
      | none =>
        refine Script.trace_kept htrace _ ?_ hu
        induction args with
        | nil => exact Origins.right_empty
        | cons a rest ih =>
          obtain ⟨ha, hrest⟩ := List.forall_mem_cons.mp hargs
          exact ha.right.union (ih hrest)

/-- **Calls keep account**, however deep they nest. -/
theorem Code.tracer_kept (code : Code) (depth : Nat) : (code.tracer depth).Keeps := by
  induction depth with
  | zero => exact fun _ _ _ w hw _ _ => .of_halt rfl hw List.prefix_rfl trivial
  | succ depth ih =>
    intro f os args w hw hf hargs
    refine .bind (hw.note_pass (List.forall_mem_cons.mpr ⟨hf, hargs⟩)) fun _ u hu _ same => ?_
    rw [← same] at hargs
    refine .bind ((Code.traceEnter_kept code ih f hu hargs).within fun _ _ => trivial)
      fun ⟨v, ps⟩ t ht _ hv => ?_
    refine .bind (ht.note_pass (List.forall_mem_singleton.mpr hv)) fun _ s hs _ same => .pure hs ?_
    rw [same]
    exact hv

end

/-! ## Evaluations -/

/-- Where evaluation starts, everything is accounted for. -/
theorem Traced.start_kept (a : Activation) : (Traced.start a).Kept where
  frame _ _ _ := .inl fun v _ => v.accounted_outside
  store :=
    { closures := fun _ _ _ _ _ _ => .inl fun v _ => v.accounted_outside
      passed := fun _ h => (nomatch h)
      made := fun _ _ _ _ h => by simp [Traced.start, Traced.inStore, Ledger.start] at h
      apart := .empty }

/-- **A ledger tells functions apart.** What a definition gave was passed as the instance that it is.
In all that was passed, every function has an origin, and two functions that come from instances are
the same function, for `sameInstance` as for equality of values, just where they come from one
instance, or from two of one target that captured nothing. -/
structure Ledger.TellsApart (l : Ledger) : Prop where
  made : ∀ (k : Nat) (target : Target) (capture : Capture) (f : Function),
    l.instances[k]? = some (.defined target capture f) →
      (.function f, {(f, .made k)}) ∈ l.passed
  covered : ∀ v os, (v, os) ∈ l.passed → v.Holds fun f => ∃ s, (f, s) ∈ os
  same : ∀ v os w ps, (v, os) ∈ l.passed → (w, ps) ∈ l.passed →
    ∀ f g j k, (f, .made j) ∈ os → (g, .made k) ∈ ps →
      ∃ x y, l.instances[j]? = some x ∧ l.instances[k]? = some y ∧
        (f.sameInstance g = true ↔ j = k ∨ x.Bare ∧ y.Bare ∧ x.target = y.target) ∧
        (Value.function f).equal (.function g) = .ok (f.sameInstance g)

theorem Traced.InStore.tellsApart {w : Traced Store} (hw : w.InStore) : w.ledger.TellsApart where
  made := hw.made
  covered v os h := (hw.passed (v, os) h).covered
  same v os u ps hv hu f g j k hf hg := by
    obtain ⟨x, hx, samef⟩ := ((hw.passed (v, os) hv).right f j hf).1
    obtain ⟨y, hy, sameg⟩ := ((hw.passed (u, ps) hu).right g k hg).1
    refine ⟨x, y, hx, hy, ?_, by rw [Value.equal]⟩
    rw [← hw.apart.sameInstance_iff hx hy]
    rw [Function.sameInstance_iff] at samef sameg ⊢
    rw [Function.sameInstance_iff, samef.1, samef.2, sameg.1, sameg.2]

/-- **Identity of functions.** The evaluation that follows functions ends as the plain one, in the same
result and activation, and its ledger tells functions apart: whatever was read from slots, made by
definitions, called, passed and returned on the way is the instance that it comes from, and two
instances are the same function only where both captured nothing, of one target, and neither was bound
recursively. -/
theorem Code.trace_instances (code : Code) (depth : Nat) (n : AnyNode) (a : Activation) :
    (code.trace depth n (.start a)).1.map Prod.fst = (code.eval depth n a).1 ∧
    (code.trace depth n (.start a)).2.state.activation = (code.eval depth n a).2 ∧
    (code.trace depth n (.start a)).2.ledger.TellsApart := by
  have followed := code.trace_eval depth n (.start a)
  have kept : (code.trace depth n).Obeys .traced (.start a) fun _ _ => True := by
    refine .bind (AnyNode.trace_kept (code.tracer_kept depth) n (Traced.start_kept a))
      fun ⟨v, os⟩ u hu _ hv => ?_
    exact .bind (note_pass hu (List.forall_mem_singleton.mpr hv)) fun _ _ ht _ _ =>
      .pure ht trivial
  exact ⟨(congrArg Prod.fst followed).symm, (congrArg Prod.snd followed).symm,
    kept.holds.store.tellsApart⟩

/-! An array of two functions of one definition, which captures nothing. -/

namespace Twins

def target : Target := ⟨0, some "one", ⟨[], .int⟩, some .empty⟩

def body : Body where
  frame := .empty
  params := []
  disclosure := []
  node := ⟨.int, .int 1⟩

def code : Code := ⟨#[.user body]⟩

/-- The definition, as a node. -/
def definition : Node .function := .define target ⟨.empty, []⟩

/-- `[() -> 1, () -> 1]`, of one definition. -/
def tree : AnyNode :=
  ⟨.reference, .array target.ty (.cons .function definition (.cons .function definition .nil))⟩

/-- What is kept beside the evaluation of the array. -/
def ledger : Ledger := (code.trace 1 tree (.start ⟨.allocate .empty, .empty⟩)).2.ledger

/-- **The two evaluations of the definition are not told apart**, though they are two instances. -/
theorem sameInstance_twins :
    ¬ ∀ v os w ps, (v, os) ∈ ledger.passed → (w, ps) ∈ ledger.passed →
      ∀ f g j k, (f, .made j) ∈ os → (g, .made k) ∈ ps → j ≠ k → f.sameInstance g = false := by
  intro apart
  have first : (Value.function (.plain target), {(.plain target, .made 0)}) ∈ ledger.passed :=
    .head _
  have second : (Value.function (.plain target), {(.plain target, .made 1)}) ∈ ledger.passed :=
    .tail _ (.head _)
  have different := apart _ _ _ _ first second (.plain target) (.plain target) 0 1 rfl rfl
    (by decide)
  exact absurd different (by decide)

end Twins

end TypedEval
