import TypedEval.Proofs.SelfReference.History
import TypedEval.Proofs.SelfReference.Natives

/-!
# Evaluations keep functions at home

Each node, script and call keeps the discipline of histories (`Discipline.recorded`): from an
activation that is kept, with constants that were given in advance and host functions that hand on
what they are given, it comes to one that is kept, its history stays sound, and what it hands over is
known. The proof goes by induction over the tree, and by induction over the depth for calls.

The tree may be any tree. A recursive binding of a definition completes a knot; one of anything else
leaves the knots as they are.
-/

namespace TypedEval

open Recorded

/-- A value that is known stays known. -/
theorem Value.Holds.later {n m : Nat} {history further : List Moment} {v : Value}
    (h : Later n history m further) (hv : v.Holds (Function.Kept n (knotsOf history) none)) :
    v.Holds (Function.Kept m (knotsOf further) none) :=
  hv.imp fun _ hf => hf.later h

/-- **A way of calling keeps functions at home**: called with known values, it returns one. -/
def Observer.Keeps (code : Code) (given : Function → Prop) (observe : Observer) : Prop :=
  ∀ (stack : List String) (f : Function) (args : List Value) (w : Recorded Store),
    (Discipline.recordedStore code given).holds w →
    (Value.function f).Holds (w.state.Knows w.history none) →
    (∀ v ∈ args, v.Holds (w.state.Knows w.history none)) →
    (observe stack f args).Obeys (.recordedStore code given) w
      fun v u => v.Holds (u.state.Knows u.history none)

section

variable {code : Code} {given : Function → Prop} {observe : Observer} {stack : List String} {α : Type}
  {w : Recorded Activation}

/-! ## Operations -/

theorem Discipline.recorded_kept (hw : (Discipline.recorded code given []).holds w) :
    w.state.Kept (knotsOf w.history) (knotsOf w.history) := by
  have kept := hw.1
  rwa [List.append_nil] at kept

/-- An operation without a knot of its own. -/
theorem Run.Obeys.step_kept {m : Run Activation α} {p : α → Activation → Prop}
    (hw : (Discipline.recorded code given []).holds w)
    (h : m.Obeys (.kept (knotsOf w.history) (knotsOf w.history)) w.state p) :
    (Recorded.step stack m).Obeys (.recorded code given []) w fun x u =>
      knotsOf u.history = knotsOf w.history ∧ p x u.state :=
  .step hw (by rw [List.append_nil]; exact h)

/-- An operation that hands over a value. -/
theorem Run.Obeys.step_known {m : Run Activation α} {box : α → Value}
    (hw : (Discipline.recorded code given []).holds w)
    (h : m.Obeys (.kept (knotsOf w.history) (knotsOf w.history)) w.state fun x b =>
      (box x).Holds (Function.Kept b.store.closures.size (knotsOf w.history) none)) :
    (Recorded.step stack m).Obeys (.recorded code given []) w fun x u =>
      (box x).Holds (u.state.store.Knows u.history none) :=
  (Run.Obeys.step_kept hw h).imp fun _ u ⟨hknots, hx⟩ => by rw [Store.Knows, hknots]; exact hx

/-- A check leaves everything as it was. -/
theorem Run.Obeys.step_check (hw : (Discipline.recorded code given []).holds w)
    (x : Except Fault α) :
    (Recorded.step stack (Run.check x)).Obeys (.recorded code given []) w fun v u =>
      x = .ok v ∧ u.state.store.Knows u.history = w.state.store.Knows w.history := by
  have kept := Discipline.recorded_kept hw
  refine (Run.Obeys.step_kept hw
    (.check_kept (p := fun v b => x = .ok v ∧ b = w.state) kept fun v hv => ⟨hv, rfl⟩)).imp ?_
  rintro v u ⟨hknots, hv, hstate⟩
  exact ⟨hv, by rw [Store.Knows, Store.Knows, hknots, hstate]⟩

theorem watchChecked_kept (hcall : observe.Keeps code given)
    (hw : (Discipline.recorded code given []).holds w) {f : Function} {args : List Value}
    (hf : (Value.function f).Holds (w.state.store.Knows w.history none))
    (hargs : ∀ v ∈ args, v.Holds (w.state.store.Knows w.history none)) (result : Ty) :
    (watchChecked observe stack f args result).Obeys (.recorded code given []) w
      fun v u => v.Holds (u.state.store.Knows u.history none) := by
  have inStore : (Discipline.recordedStore code given).holds ⟨w.state.store, w.history⟩ :=
    ⟨(Discipline.recorded_kept hw).store, hw.2⟩
  refine .bind (Run.Obeys.onRecordedStore hw (hcall stack f args _ inStore hf hargs))
    fun v u hu _ hv => ?_
  split
  · exact .pure hu hv
  · exact (Run.Obeys.step_kept (p := fun _ _ => False) hu
      (.fault (Discipline.recorded_kept hu) trivial)).imp fun _ _ h => h.2.elim

/-- The recursive binding of a node that is no definition completes no knot. -/
theorem noteTied_kept (hw : (Discipline.recorded code given []).holds w) {n : Node .function}
    (hn : ¬ n.IsDefinition) (slot closureSlot : Nat) :
    (Recorded.note (.tied slot n closureSlot)).Obeys (.recorded code given []) w
      fun _ _ => True := by
  have none : (Moment.tied slot n closureSlot w.state).knot? = none := by
    cases n with
    | define target capture => exact absurd ⟨target, capture, rfl⟩ hn
    | _ => rfl
  have same : knotsOf (w.history ++ [.tied slot n closureSlot w.state]) = knotsOf w.history := by
    rw [knotsOf_append, knotsOf_single none, List.append_nil]
  have onward := Later.of_knots (Nat.le_refl w.state.store.closures.size) same
  refine .of_ok (t := ⟨w.state, w.history ++ [Moment.tied slot n closureSlot w.state]⟩) rfl
    ⟨?_, hw.2.1.append (Discipline.recorded_kept hw).homed fun h => absurd h hn,
      fun f hf => (hw.2.2 f hf).later onward⟩ onward trivial
  rw [same]
  exact hw.1

/-! ## The tree -/

mutual

/-- **A node hands over what is known**, and keeps its history sound. -/
theorem Node.watch_kept (hcall : observe.Keeps code given) : {family : Family} →
    (n : Node family) → n.All (Item.Holds given) → (w : Recorded Activation) →
    (Discipline.recorded code given []).holds w →
    (n.watch observe stack).Obeys (.recorded code given []) w
      fun x u => (family.box x).Holds (u.state.store.Knows u.history none)
  | _, .bool b, _, _, hw => .pure hw (.bool b)
  | _, .int n, _, _, hw => .pure hw (.int n)
  | _, .float x, _, _, hw => .pure hw (.float x)
  | _, .function _, h, _, hw => .pure hw (Value.Holds.imp hw.2.2 h)
  | _, .constant _, h, _, hw => .pure hw (Value.Holds.imp hw.2.2 h)
  | family, .read slot _, _, _, hw =>
    .step_known hw (readAs_kept (Discipline.recorded_kept hw) family slot)
  | _, .not n, h, w, hw =>
    .bind (Node.watch_kept hcall n h w hw) fun x _ hu _ _ => .pure hu (.bool (!x))
  | _, .negateInt n, h, w, hw =>
    .bind (Node.watch_kept hcall n h w hw) fun _ _ hu _ _ =>
      (Run.Obeys.step_check hu _).imp fun m _ _ => .int m
  | _, .negateFloat n, h, w, hw =>
    .bind (Node.watch_kept hcall n h w hw) fun x _ hu _ _ => .pure hu (.float (-x))
  | _, .logic op m n, h, w, hw =>
    .bind (Node.watch_kept hcall m h.1 w hw) fun x u hu _ _ => by
      cases op.decided? x with
      | some r => exact .pure hu (.bool r)
      | none =>
        exact .bind (Node.watch_kept hcall n h.2 u hu) fun y _ hv _ _ =>
          .pure hv (.bool (op.apply x y))
  | _, .compareInt op m n, h, w, hw =>
    .bind (Node.watch_kept hcall m h.1 w hw) fun x u hu _ _ =>
      .bind (Node.watch_kept hcall n h.2 u hu) fun y _ hv _ _ => .pure hv (.bool (op.applyInt x y))
  | _, .compareFloat op m n, h, w, hw =>
    .bind (Node.watch_kept hcall m h.1 w hw) fun x u hu _ _ =>
      .bind (Node.watch_kept hcall n h.2 u hu) fun y _ hv _ _ =>
        .pure hv (.bool (op.applyFloat x y))
  | _, .arithInt _ m n, h, w, hw =>
    .bind (Node.watch_kept hcall m h.1 w hw) fun _ u hu _ _ =>
      .bind (Node.watch_kept hcall n h.2 u hu) fun _ _ hv _ _ =>
        (Run.Obeys.step_check hv _).imp fun k _ _ => .int k
  | _, .arithFloat op m n, h, w, hw =>
    .bind (Node.watch_kept hcall m h.1 w hw) fun x u hu _ _ =>
      .bind (Node.watch_kept hcall n h.2 u hu) fun y _ hv _ _ => .pure hv (.float (op.apply x y))
  | _, .cond test m n, h, w, hw =>
    .bind (Node.watch_kept hcall test h.1 w hw) fun x u hu _ _ => by
      cases x with
      | true => exact Node.watch_kept hcall m h.2.1 u hu
      | false => exact Node.watch_kept hcall n h.2.2 u hu
  | _, .block bindings body, h, w, hw =>
    .bind (Bindings.watch_kept hcall bindings h.1 w hw) fun _ u hu _ _ =>
      Node.watch_kept hcall body h.2 u hu
  | family, .call callee args result, h, w, hw => by
    refine .bind (Node.watch_kept hcall callee h.1 w hw) fun f u hu _ hf => ?_
    refine .bind (Nodes.watch_kept hcall args h.2 u hu) fun values v hv onward hvalues => ?_
    refine .bind (watchChecked_kept hcall hv (hf.later onward) hvalues result)
      fun r t ht _ hr => ?_
    refine (Run.Obeys.step_check ht _).imp ?_
    rintro x s ⟨hx, hknows⟩
    rw [hknows]
    exact hr.unbox (lift_defect_eq_ok.mp hx)
  | family, .index seq i _, h, w, hw => by
    refine .bind (Node.watch_kept hcall seq h.1 w hw) fun value u hu _ hvalue => ?_
    refine .bind (Run.Obeys.step_check hu _) ?_
    rintro view v hv - ⟨hview, hknows⟩
    refine .bind (Node.watch_kept hcall i h.2 v hv) fun k t ht onward _ => ?_
    refine (Run.Obeys.step_check ht _).imp ?_
    rintro x s ⟨hx, hknows'⟩
    have cells := (hknows ▸ hvalue).view (lift_defect_eq_ok.mp hview)
    rw [hknows']
    exact ViewOf.each_getAs Value.holds_of_primitive (fun y hy => (cells y hy).later onward) hx
  | _, .slice seq slicer, h, w, hw => by
    refine .bind (Node.watch_kept hcall seq h.1 w hw) fun value u hu _ hvalue => ?_
    refine .bind (Run.Obeys.step_check hu _) ?_
    rintro view v hv - ⟨hview, hknows⟩
    have cells := (hknows ▸ hvalue).view (lift_defect_eq_ok.mp hview)
    refine .bind (Node.watch_kept hcall slicer h.2 v hv) fun _ t ht onward _ => ?_
    refine .bind (Run.Obeys.step_check ht _) ?_
    rintro range q hq - ⟨-, rangeKnows⟩
    refine .bind (Run.Obeys.step_check hq _) ?_
    rintro bounds r hr - ⟨-, boundsKnow⟩
    refine .bind (Run.Obeys.step_check hr _) ?_
    rintro cut s hs - ⟨hcut, cutKnows⟩
    refine .pure hs (.slice fun y hy => ?_)
    rw [ViewOf.array_of_slice hcut] at hy
    rw [cutKnows, boundsKnow, rangeKnows]
    exact (cells y hy).later onward
  | _, .array element items, h, w, hw => by
    refine .bind (Nodes.watchFill_kept hcall items h (.new element) w hw (Storage.each_empty _))
      fun b u hu _ hb => ?_
    have kept := Discipline.recorded_kept hu
    refine .bind (Run.Obeys.step_kept hu (.onStore_kept kept (newStorage_kept kept.store))) ?_
    rintro id v hv - ⟨hknots, -, hclosures⟩
    refine .pure hv (.array fun x hx => ?_)
    rw [Store.Knows, hknots, hclosures]
    exact hb x hx
  | _, .intRange first last step, h, w, hw =>
    .bind (Part.watch_kept hcall first h.1 w hw) fun _ u hu _ _ =>
      .bind (Part.watch_kept hcall last h.2.1 u hu) fun _ v hv _ _ =>
        .bind (Part.watch_kept hcall step h.2.2 v hv) fun _ _ ht _ _ =>
          .bind (Run.Obeys.step_check ht _) fun r _ hs _ _ => .pure hs (.range (.int r))
  | _, .floatRange first last step, h, w, hw =>
    .bind (Part.watch_kept hcall first h.1 w hw) fun _ u hu _ _ =>
      .bind (Part.watch_kept hcall last h.2.1 u hu) fun _ v hv _ _ =>
        .bind (Part.watch_kept hcall step h.2.2 v hv) fun _ _ ht _ _ =>
          .bind (Run.Obeys.step_check ht _) fun r _ hs _ _ => .pure hs (.range (.float r))
  | _, .define target capture, _, w, hw => by
    have kept := Discipline.recorded_kept hw
    refine .step_known hw ((instantiate_kept kept capture fun κ hκ hclosure => ?_).imp
      fun _ _ hf => .function hf.1)
    exact absurd hclosure (Nat.ne_of_lt (kept.store.tied κ hκ).lt_size)

theorem Nodes.watch_kept (hcall : observe.Keeps code given) : (ns : Nodes) →
    ns.All (Item.Holds given) → (w : Recorded Activation) →
    (Discipline.recorded code given []).holds w →
    (ns.watch observe stack).Obeys (.recorded code given []) w
      fun vs u => ∀ v ∈ vs, v.Holds (u.state.store.Knows u.history none)
  | .nil, _, _, hw => .pure hw fun _ h => (nomatch h)
  | .cons _ n ns, h, w, hw =>
    .bind (Node.watch_kept hcall n h.1 w hw) fun _ u hu _ hx =>
      .bind (Nodes.watch_kept hcall ns h.2 u hu) fun _ _ hv onward hvs =>
        .pure hv (List.forall_mem_cons.mpr ⟨hx.later onward, hvs⟩)

theorem Nodes.watchFill_kept (hcall : observe.Keeps code given) : (ns : Nodes) →
    ns.All (Item.Holds given) → (b : Builder) → (w : Recorded Activation) →
    (Discipline.recorded code given []).holds w →
    b.storage.Each (Value.Holds (w.state.store.Knows w.history none)) →
    (ns.watchFill observe stack b).Obeys (.recorded code given []) w
      fun b u => b.storage.Each (Value.Holds (u.state.store.Knows u.history none))
  | .nil, _, _, _, hw, hb => .pure hw hb
  | .cons _ n ns, h, b, w, hw, hb => by
    refine .bind (Node.watch_kept hcall n h.1 w hw) fun x u hu onward hx => ?_
    refine .bind (Run.Obeys.step_check hu _) ?_
    rintro c v hv - ⟨hc, hknows⟩
    refine Nodes.watchFill_kept hcall ns h.2 c v hv ?_
    rw [hknows]
    exact Builder.each_pushAs (fun y hy => (hb y hy).later onward) hx hc

theorem Part.watch_kept (hcall : observe.Keeps code given) : {family : Family} →
    (p : Part family) → p.All (Item.Holds given) → (w : Recorded Activation) →
    (Discipline.recorded code given []).holds w →
    (p.watch observe stack).Obeys (.recorded code given []) w fun _ _ => True
  | _, .none, _, _, hw => .pure hw trivial
  | _, .some n, h, w, hw =>
    .bind (Node.watch_kept hcall n h w hw) fun _ _ hu _ _ => .pure hu trivial

theorem Bindings.watch_kept (hcall : observe.Keeps code given) : (bs : Bindings) →
    bs.All (Item.Holds given) → (w : Recorded Activation) →
    (Discipline.recorded code given []).holds w →
    (bs.watch observe stack).Obeys (.recorded code given []) w fun _ _ => True
  | .nil, _, _, hw => .pure hw trivial
  | .bind _ slot n rest, h, w, hw =>
    .bind (Node.watch_kept hcall n h.1 w hw) fun _ _ hu _ hx =>
      .bind (Run.Obeys.step_kept hu (writeAs_kept (Discipline.recorded_kept hu) hx slot))
        fun _ v hv _ _ => Bindings.watch_kept hcall rest h.2 v hv
  | .bindRec slot n closureSlot rest, h, w, hw => by
    by_cases hn : n.IsDefinition
    · obtain ⟨target, capture, rfl⟩ := hn
      have whole := (bindDefinition_recorded stack hw target capture slot closureSlot).bind
        fun _ u hu _ _ => Bindings.watch_kept hcall rest h.2.2 u hu
      simp only [bind_assoc] at whole
      exact whole
    · refine .bind (Node.watch_kept hcall n h.2.1 w hw) fun f u hu _ hf => ?_
      have hf : f.Kept u.state.store.closures.size (knotsOf u.history) none := by
        cases hf with
        | function hf => exact hf
      refine .bind (Run.Obeys.step_kept hu
        (writeFunction_kept (Discipline.recorded_kept hu) hf slot)) fun _ v hv _ _ => ?_
      have kept := Discipline.recorded_kept hv
      refine .bind (Run.Obeys.step_kept hv (tieKnot_kept kept (fun _ h => h) ?_))
        fun _ t ht _ _ => ?_
      · intro g _ _ κ hκ hclosure
        exact absurd hclosure (Nat.ne_of_lt (kept.store.tied κ hκ).lt_size)
      · exact .bind (noteTied_kept ht hn slot closureSlot)
          fun _ s hs _ _ => Bindings.watch_kept hcall rest h.2.2 s hs

end

theorem AnyNode.watch_kept (stack : List String) (hcall : observe.Keeps code given) (n : AnyNode)
    (h : n.node.All (Item.Holds given)) (hw : (Discipline.recorded code given []).holds w) :
    (n.watch observe stack).Obeys (.recorded code given []) w
      fun v u => v.Holds (u.state.store.Knows u.history none) :=
  .bind (Node.watch_kept hcall n.node h w hw) fun _ _ hu _ hx => .pure hu hx

end

/-! ## Calls -/

section

variable {code : Code} {given : Function → Prop} {observe : Observer} {w : Recorded Store}

/-- **A script that hands on what it knows** calls and returns what is known. -/
theorem Script.watch_kept {α : Type} {p : (Function → Prop) → α → Prop}
    (hcall : observe.Keeps code given) (stack : List String) {m : Script α}
    (hw : (Discipline.recordedStore code given).holds w)
    (hm : m.HandsOn p (w.state.Knows w.history none)) :
    (m.watch observe stack).Obeys (.recordedStore code given) w
      fun a u => p (u.state.Knows u.history none) a := by
  induction m generalizing w with
  | done a => cases hm with | done h => exact .pure hw h
  | fail f =>
    exact (Run.Obeys.plain (p := fun _ _ => False) hw (.fault hw.1 trivial)).imp
      fun _ _ h => h.2.elim
  | newStorage next ih =>
    cases hm with
    | newStorage h =>
      refine .bind (Run.Obeys.plain hw (newStorage_kept hw.1)) ?_
      rintro id u hu - ⟨hknots, hclosures⟩
      refine ih id hu ?_
      rw [Store.Knows, hknots, hclosures]
      exact h id
  | resolve f next ih =>
    cases hm with
    | resolve _ h =>
      refine .bind (Run.Obeys.plain (p := fun _ s => s = w.state) hw
        (.read hw.1 (fun _ _ => rfl) fun _ _ => trivial)) ?_
      rintro closure u hu - ⟨hknots, hstate⟩
      refine ih hu ?_
      rw [Store.Knows, hknots, hstate]
      exact h
  | call f args next ih =>
    cases hm with
    | call hf hargs h =>
      refine .bind (hcall stack f args w hw (.function hf) hargs) fun v u hu onward hv => ?_
      exact ih v hu (h _ (fun g hg => hg.later onward) v hv)

/-- **A body starts in a frame that is at home**, and returns what is known. -/
theorem Body.watch_kept (hcall : observe.Keeps code given) (stack : List String) {body : Body}
    (hbody : body.node.node.All (Item.Holds given)) {f : Function} {args : List Value}
    {closure : Option (Nat × Frame)} (hw : (Discipline.recordedStore code given).holds w)
    (hf : (Value.function f).Holds (w.state.Knows w.history none))
    (hargs : ∀ v ∈ args, v.Holds (w.state.Knows w.history none))
    (hroutine : code.routine? f.target = some (.user body))
    (hclosure : f.closureIn w.state = .ok closure) :
    (body.watch observe stack f closure args).Obeys (.recordedStore code given) w
      fun v u => v.Holds (u.state.Knows u.history none) := by
  obtain ⟨kept, sound, known⟩ := hw
  have hcaptured (id : Nat) (c : Frame) (hc : closure = some (id, c)) :
      c.Holds (w.state.Knows w.history) (some id) :=
    kept.functions id c (Function.closure_of_closureIn (hc ▸ hclosure)).2
  have entered := body.enter_holds (fun _ _ hg => hg.disclosedFrom) hcaptured hargs
  rcases henter : body.enter closure args (.allocate body.frame) with ⟨r, frame⟩
  cases r with
  | error e =>
    have same : knotsOf (w.history ++ e.moments) = knotsOf w.history := by
      rw [knotsOf_append, knotsOf_moments, List.append_nil]
    have onward := Later.of_knots (Nat.le_refl w.state.closures.size) same
    refine .of_halt (e := e.snapshot stack) (t := ⟨w.state, w.history ++ e.moments⟩)
      (by simp [Body.watch, Recorded.plain, Recorded.act, henter])
      ⟨?_, sound.append_moments e, fun f hf => (known f hf).later onward⟩ onward trivial
    rw [same]
    exact kept
  | ok _ =>
    obtain ⟨hframe, -, -⟩ := entered.ok henter
    let start : Recorded Activation :=
      ⟨⟨frame, w.state⟩, w.history ++ [Moment.entered f args frame w.state]⟩
    have same : knotsOf start.history = knotsOf w.history := by
      rw [knotsOf_append, knotsOf_single rfl, List.append_nil]
    have onward := Later.of_knots (Nat.le_refl w.state.closures.size) same
    have homed {v : Value} (hv : v.Holds (w.state.Knows w.history none)) : v.HomedIn w.state :=
      hv.imp fun _ hg => hg.homed
    have moment : (Moment.entered f args frame w.state).Homed :=
      ⟨Activation.Kept.homed ⟨hframe, kept⟩, homed hf, fun v hv => homed (hargs v hv)⟩
    have ready : (Discipline.recorded code given []).holds start := by
      refine ⟨?_, sound.append moment ⟨⟨body, closure, hroutine, hclosure, henter⟩, kept.tied⟩,
        fun f hf => (known f hf).later onward⟩
      rw [List.append_nil, same]
      exact ⟨hframe, kept⟩
    have evaluated := AnyNode.watch_kept stack hcall body.node hbody ready
    rcases heval : body.node.watch observe stack start with ⟨v, u⟩
    have run : body.watch observe stack f closure args w = (v, ⟨u.state.store, u.history⟩) := by
      simp only [Body.watch, Recorded.plain, Recorded.act, henter, List.append_nil]
      rw [heval]
    cases v with
    | ok v =>
      obtain ⟨hu, further, hv⟩ := evaluated.ok heval
      exact .of_ok run ⟨(Discipline.recorded_kept hu).store, hu.2⟩ (onward.trans further) hv
    | error e =>
      obtain ⟨hu, further, -⟩ := evaluated.halt heval
      exact .of_halt run ⟨(Discipline.recorded_kept hu).store, hu.2⟩ (onward.trans further) trivial

theorem Code.watchEnter_kept (hcode : code.HandsOn given) (hcall : observe.Keeps code given) :
    Observer.Keeps code given (code.watchEnter observe) := by
  intro stack f args w hw hf hargs
  refine .bind (Run.Obeys.plain (p := fun r s => f.closureIn w.state = .ok r ∧ s = w.state) hw
    (.read hw.1 (fun r hr => ⟨lift_defect_eq_ok.mp hr, rfl⟩) fun _ _ => trivial)) ?_
  rintro closure u hu - ⟨hknots, hclosure, hstate⟩
  have knows : u.state.Knows u.history = w.state.Knows w.history := by
    rw [Store.Knows, Store.Knows, hknots, hstate]
  have refused (fault : Fault) : (Recorded.plain stack (Run.fault fault)).Obeys
      (.recordedStore code given) u fun v u => Value.Holds (u.state.Knows u.history none) v :=
    (Run.Obeys.plain (p := fun _ _ => False) hu (.fault hu.1 trivial)).imp fun _ _ h => h.2.elim
  rw [← knows] at hf hargs
  rw [← hstate] at hclosure
  cases hroutine : code.routine? f.target with
  | none => exact refused _
  | some routine =>
    have hmem := Array.mem_of_getElem? hroutine
    cases routine with
    | user body => exact Body.watch_kept hcall stack (hcode _ hmem) hu hf hargs hroutine hclosure
    | native script =>
      cases closure with
      | some closure => exact refused _
      | none =>
        exact Script.watch_kept hcall stack hu (hcode _ hmem _ hu.2.2 args hargs)

/-- **Calls keep functions at home**, however deep they nest. -/
theorem Code.observe_kept (hcode : code.HandsOn given) (depth : Nat) :
    Observer.Keeps code given (code.observe depth) := by
  induction depth with
  | zero => exact fun _ _ _ w hw _ _ => .of_halt rfl hw (.refl _ _) trivial
  | succ depth ih =>
    intro stack f args w hw hf hargs
    have homed {s : Store} {history : List Moment} {v : Value}
        (hv : v.Holds (s.Knows history none)) : v.HomedIn s := hv.imp fun _ hg => hg.homed
    refine .bind (Run.Obeys.note hw ⟨hw.1.homed, homed hf, fun v hv => homed (hargs v hv)⟩
      trivial rfl) ?_
    rintro - u hu onward ⟨hstate, hknots⟩
    refine .bind (Code.watchEnter_kept hcode ih _ f args u hu (hf.later onward)
      fun v hv => (hargs v hv).later onward) fun v t ht further hv => ?_
    refine .bind (Run.Obeys.note ht
      ⟨ht.1.homed, homed ((hf.later onward).later further), homed hv⟩ trivial rfl) ?_
    rintro - s hs - ⟨hstate', hknots'⟩
    refine .pure hs ?_
    rw [Store.Knows, hknots', hstate']
    exact hv

end

end TypedEval
