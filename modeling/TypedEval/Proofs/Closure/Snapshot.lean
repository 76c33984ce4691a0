import TypedEval.Call
import TypedEval.Proofs.Closure.Basic
import TypedEval.Proofs.Discipline
import TypedEval.Proofs.Node.Recursion

/-!
# Closures are snapshots

A closure is written when it is made and, by the recursive binding of its function, once more. The
law (`Code.eval_extends`): where recursive bindings bind definitions, an evaluation leaves every
closure that was there before it exactly as it was, however the evaluation ends.

The one write to an existing closure is `writeSelf`. The proof follows the function from its
definition to that write: the definition's closure is fresh or missing (`instantiate_fresh`), the
slot that was written gives that function back, and a missing closure is made on the spot
(`ensureClosure_fresh`). So the number that is written to is not below the size that the store had
before the binding. Everything else passes the store on, or adds to it.
-/

namespace TypedEval

/-! ## Runs that keep closures -/

/-- **A run keeps the closures** that are there when it starts. -/
def Run.Keeps {α : Type} (m : Run Activation α) : Prop :=
  ∀ a : Activation, a.store.Extends (m a).2.store

/-- A way of calling keeps the closures that are there when it starts. -/
def Caller.Keeps (call : Caller) : Prop := ∀ f args (s : Store), s.Extends (call f args s).2

namespace Run

variable {α β : Type}

theorem Keeps.bind {m : Run Activation α} {f : α → Run Activation β} (h : m.Keeps)
    (k : ∀ x, (f x).Keeps) : (m >>= f).Keeps := by
  intro a
  have first := h a
  rcases hm : m a with ⟨r, b⟩
  rw [hm] at first
  cases r with
  | error e => rw [bind_halt hm]; exact first
  | ok x => rw [bind_ok hm]; exact first.trans (k x b)

/-- A run that leaves the store alone keeps its closures. -/
theorem Keeps.of_store {m : Run Activation α} (h : ∀ a, (m a).2.store = a.store) : m.Keeps := by
  intro a
  rw [h a]
  exact .refl _

theorem Keeps.pure (x : α) : (Pure.pure x : Run Activation α).Keeps := .of_store fun _ => rfl

theorem Keeps.check (x : Except Fault α) : (Run.check x : Run Activation α).Keeps :=
  .of_store fun _ => by cases x <;> rfl

theorem Keeps.readFrame (f : Frame → Except Fault α) : (Activation.readFrame f).Keeps :=
  .of_store fun a => by
    show (Run.check (f a.frame) a).2.store = a.store
    cases f a.frame <;> rfl

theorem Keeps.updateFrame (f : Frame → Except Fault Frame) : (Activation.updateFrame f).Keeps :=
  .of_store fun a => by
    show ((Run.update f a.frame).1, { a with frame := _ }).2.store = a.store
    rfl

theorem Keeps.onStore {m : Run Store α} (h : ∀ s : Store, s.Extends (m s).2) :
    (Activation.onStore m).Keeps := fun a => h a.store

end Run

theorem callChecked_keeps {call : Caller} (h : call.Keeps) (f : Function) (args : List Value)
    (result : Ty) : (callChecked call f args result).Keeps :=
  .bind (.onStore (h f args)) fun v => by
    split
    · exact .pure v
    · exact .of_store fun _ => rfl

theorem newStorage_keeps : (Activation.onStore Store.newStorage).Keeps :=
  .onStore fun s => Store.Extends.refl s

/-! ## The recursive binding of a definition -/

/-- Runs that keep the closures of one store, the store before a binding. -/
def Discipline.keeping (base : Store) : Discipline Activation where
  holds a := base.Extends a.store
  leads _ _ := True
  halts _ := True
  refl _ := trivial
  trans _ _ := trivial

/-- The closure of a function, if it has one, is not among those of `base`. -/
def Function.FreshTo (f : Function) (base : Store) : Prop :=
  ∀ id, f.closureId? = some id → base.closures.size ≤ id

/-- A definition gives a function whose closure is fresh or missing. -/
theorem instantiate_fresh (target : Target) (capture : Capture) (a : Activation) :
    (instantiate target capture).Obeys (.keeping a.store) a fun f _ => f.FreshTo a.store := by
  obtain ⟨-, h⟩ | ⟨f, -, h⟩ | ⟨frame, -, h⟩ := instantiate_cases target capture a
  · exact .of_ok h (Store.Extends.refl _) trivial (fun id hid => nomatch hid)
  · exact .of_halt h (Store.Extends.refl _) trivial trivial
  · refine .of_ok h (Store.extends_addClosure _ frame) trivial ?_
    intro id hid
    cases hid
    exact Nat.le_refl _

theorem instantiate_keeps (target : Target) (capture : Capture) :
    (instantiate target capture).Keeps :=
  fun a => (instantiate_fresh target capture a).holds

/-- Where a missing closure has to be made, it is fresh too. -/
theorem ensureClosure_fresh {base : Store} {a : Activation} {slot : Nat} {f : Function}
    (ha : base.Extends a.store) (hf : f.FreshTo base) :
    (ensureClosure slot f).Obeys (.keeping base) a fun r _ => base.closures.size ≤ r.1 := by
  unfold ensureClosure
  apply Run.Obeys.bind (p := fun r b => b = a ∧ f.closureIn a.store = .ok r)
  · refine .read ha ?_ (fun _ _ => trivial)
    intro r hr
    exact ⟨rfl, lift_defect_eq_ok.mp hr⟩
  rintro r b hb - ⟨rfl, hr⟩
  have named := Function.closureId?_of_closureIn hr
  cases r with
  | some r => exact .pure hb (hf _ named)
  | none =>
    simp only
    split
    · exact .bind (p := fun _ _ => True) (.read hb (fun _ _ => trivial) fun _ _ => trivial)
        fun _ _ hb _ _ => .fault hb trivial
    · next layout _ =>
      have made := Store.extends_addClosure b.store (.allocate layout)
      refine .bind (p := fun id _ => id = b.store.closures.size)
        ⟨hb.trans made, trivial, rfl⟩ ?_
      rintro id c hc - rfl
      refine .bind (p := fun _ _ => True) ?_ (fun _ d hd _ _ => .pure hd hb.size_le)
      exact .updateFrame hc (fun _ _ => ⟨hc, trivial, trivial⟩) (fun _ _ => trivial)

/-- A function is written into its closure alone. -/
theorem writeSelf_keeps {base s : Store} (hs : base.Extends s) {id : Nat}
    (hid : base.closures.size ≤ id) (closureSlot : Nat) (f : Function) :
    base.Extends (writeSelf id closureSlot f s).2 := by
  unfold writeSelf Run.update
  split
  · next t ht =>
    simp only at ht
    split at ht
    · cases ht
    · obtain ⟨frame, _, ht⟩ := bind_eq_ok.mp ht
      cases ht
      exact hs.setClosure hid frame
  · exact hs

/-- **A recursive binding of a definition writes to no closure that was there before.** -/
theorem bindDefinition_keeps (slot : Nat) (target : Target) (capture : Capture)
    (closureSlot : Nat) :
    Run.Keeps (do
      let f ← instantiate target capture
      Activation.updateFrame (·.writeFunction slot f)
      tieKnot slot closureSlot) := by
  intro a
  refine Run.Obeys.holds (D := .keeping a.store) (p := fun _ _ => True) ?_
  refine .bind (instantiate_fresh target capture a) ?_
  intro f b hb _ hf
  refine .bind (p := fun _ c => c.frame.readFunction slot = .ok f) ?_ ?_
  · exact .updateFrame hb
      (fun g hg => ⟨hb, trivial, Frame.readFunction_of_writeFunction hg⟩) (fun _ _ => trivial)
  -- The knot finds the function that was just written, so its closure is the fresh one.
  intro _ c hc _ hread
  unfold tieKnot
  refine .bind_read (by exact hread) ?_
  refine .bind (ensureClosure_fresh hc hf) ?_
  rintro ⟨id, g⟩ e he - hid
  have kept := writeSelf_keeps he hid closureSlot g
  refine ⟨kept, trivial, ?_⟩
  split <;> trivial

/-! ## Evaluation -/

section

variable {call : Caller}

mutual

theorem Node.eval_keeps (hc : call.Keeps) :
    {family : Family} → (n : Node family) → n.DefinesRecursion → (n.eval call).Keeps
  | _, .bool b, _ => .pure b
  | _, .int n, _ => .pure n
  | _, .float x, _ => .pure x
  | _, .function f, _ => .pure f
  | _, .constant v, _ => .pure v
  | _, .read _ _, _ => .readFrame _
  | _, .not a, h => .bind (Node.eval_keeps hc a h) fun _ => .pure _
  | _, .negateInt a, h => .bind (Node.eval_keeps hc a h) fun _ => .check _
  | _, .negateFloat a, h => .bind (Node.eval_keeps hc a h) fun _ => .pure _
  | _, .logic op a b, h => .bind (Node.eval_keeps hc a h.1) fun x => by
    cases op.decided? x with
    | some r => exact .pure r
    | none => exact .bind (Node.eval_keeps hc b h.2) fun _ => .pure _
  | _, .compareInt _ a b, h =>
    .bind (Node.eval_keeps hc a h.1) fun _ => .bind (Node.eval_keeps hc b h.2) fun _ => .pure _
  | _, .compareFloat _ a b, h =>
    .bind (Node.eval_keeps hc a h.1) fun _ => .bind (Node.eval_keeps hc b h.2) fun _ => .pure _
  | _, .arithInt _ a b, h =>
    .bind (Node.eval_keeps hc a h.1) fun _ => .bind (Node.eval_keeps hc b h.2) fun _ => .check _
  | _, .arithFloat _ a b, h =>
    .bind (Node.eval_keeps hc a h.1) fun _ => .bind (Node.eval_keeps hc b h.2) fun _ => .pure _
  | _, .cond test a b, h => .bind (Node.eval_keeps hc test h.1) fun x => by
    cases x with
    | false => exact Node.eval_keeps hc b h.2.2
    | true => exact Node.eval_keeps hc a h.2.1
  | _, .block bs body, h =>
    .bind (Bindings.execute_keeps hc bs h.1) fun _ => Node.eval_keeps hc body h.2
  | _, .call callee args _, h =>
    .bind (Node.eval_keeps hc callee h.1) fun _ => .bind (Nodes.eval_keeps hc args h.2) fun _ =>
      .bind (callChecked_keeps hc _ _ _) fun _ => .check _
  | _, .index seq i _, h =>
    .bind (Node.eval_keeps hc seq h.1) fun _ => .bind (.check _) fun _ =>
      .bind (Node.eval_keeps hc i h.2) fun _ => .check _
  | _, .slice seq slicer, h =>
    .bind (Node.eval_keeps hc seq h.1) fun _ => .bind (.check _) fun _ =>
      .bind (Node.eval_keeps hc slicer h.2) fun _ => .bind (.check _) fun _ =>
        .bind (.check _) fun _ => .bind (.check _) fun _ => .pure _
  | _, .array _ items, h =>
    .bind (Nodes.fill_keeps hc items h _) fun _ => .bind newStorage_keeps fun _ => .pure _
  | _, .intRange first last step, h =>
    .bind (Part.eval_keeps hc first h.1) fun _ => .bind (Part.eval_keeps hc last h.2.1) fun _ =>
      .bind (Part.eval_keeps hc step h.2.2) fun _ => .bind (.check _) fun _ => .pure _
  | _, .floatRange first last step, h =>
    .bind (Part.eval_keeps hc first h.1) fun _ => .bind (Part.eval_keeps hc last h.2.1) fun _ =>
      .bind (Part.eval_keeps hc step h.2.2) fun _ => .bind (.check _) fun _ => .pure _
  | _, .define target capture, _ => instantiate_keeps target capture

theorem Nodes.eval_keeps (hc : call.Keeps) :
    (ns : Nodes) → ns.DefinesRecursion → (ns.eval call).Keeps
  | .nil, _ => .pure _
  | .cons _ n ns, h =>
    .bind (Node.eval_keeps hc n h.1) fun _ => .bind (Nodes.eval_keeps hc ns h.2) fun _ => .pure _

theorem Nodes.fill_keeps (hc : call.Keeps) :
    (ns : Nodes) → ns.DefinesRecursion → (b : Builder) → (ns.fill call b).Keeps
  | .nil, _, _ => .pure _
  | .cons _ n ns, h, _ =>
    .bind (Node.eval_keeps hc n h.1) fun _ => .bind (.check _) fun b => Nodes.fill_keeps hc ns h.2 b

theorem Part.eval_keeps (hc : call.Keeps) :
    {family : Family} → (p : Part family) → p.DefinesRecursion → (p.eval call).Keeps
  | _, .none, _ => .pure _
  | _, .some n, h => .bind (Node.eval_keeps hc n h) fun _ => .pure _

theorem Bindings.execute_keeps (hc : call.Keeps) :
    (bs : Bindings) → bs.DefinesRecursion → (bs.execute call).Keeps
  | .nil, _ => .pure _
  | .bind _ _ n rest, h =>
    .bind (Node.eval_keeps hc n h.1) fun _ => .bind (.updateFrame _) fun _ =>
      Bindings.execute_keeps hc rest h.2
  | .bindRec slot n closureSlot rest, h => by
    obtain ⟨⟨target, capture, rfl⟩, hrest⟩ := h
    have whole := (bindDefinition_keeps slot target capture closureSlot).bind
      fun _ => Bindings.execute_keeps hc rest hrest
    simp only [bind_assoc] at whole
    exact whole

end

/-- Scripts of the host reach closures only through the calls that they make. -/
theorem Script.run_keeps (hc : call.Keeps) {α : Type} (m : Script α) (s : Store) :
    s.Extends (m.run call s).2 := by
  induction m generalizing s with
  | done a => exact .refl s
  | fail f => exact .refl s
  | newStorage next ih =>
    have rest := ih s.storages { s with storages := s.storages + 1 }
    exact fun id frame h => rest id frame h
  | resolve f next ih =>
    cases hclosure : f.closureIn s with
    | error d => rw [Script.run_resolve_error call hclosure]; exact .refl s
    | ok c => rw [Script.run_resolve_ok call hclosure]; exact ih s
  | call f args next ih =>
    have first := hc f args s
    rcases hcall : call f args s with ⟨r, t⟩
    rw [hcall] at first
    cases r with
    | error e => rw [Script.run, Run.bind_halt hcall]; exact first
    | ok v => rw [Script.run, Run.bind_ok hcall]; exact first.trans (ih v t)

end

/-! ## Calls -/

theorem Body.run_keeps {call : Caller} (hc : call.Keeps) {body : Body}
    (hbody : body.node.node.DefinesRecursion) (closure : Option (Nat × Frame)) (args : List Value)
    (s : Store) : s.Extends (body.run call closure args s).2 := by
  unfold Body.run
  split
  · exact .refl s
  · next frame _ =>
    have evaluated : (body.node.eval call).Keeps :=
      .bind (Node.eval_keeps hc body.node.node hbody) fun _ => .pure _
    exact evaluated ⟨frame, s⟩

theorem Code.enter_keeps {code : Code} (hcode : code.DefinesRecursion) {call : Caller}
    (hc : call.Keeps) (f : Function) (args : List Value) (s : Store) :
    s.Extends (code.enter call f args s).2 := by
  cases hclosure : f.closureIn s with
  | error e =>
    have halted : (Run.read fun t : Store => liftM (f.closureIn t)) s =
        (.error (.fault (.defect e) []), s) := by
      simp [Run.read, Run.check, hclosure]
    rw [Code.enter, Run.bind_halt halted]
    exact .refl s
  | ok closure =>
    have looked : (Run.read fun t : Store => liftM (f.closureIn t)) s = (.ok closure, s) := by
      simp [Run.read, Run.check, hclosure]
    rw [Code.enter, Run.bind_ok looked]
    cases hr : code.routine? f.target with
    | none => exact .refl s
    | some routine =>
      cases routine with
      | user body => exact Body.run_keeps hc (hcode body (Array.mem_of_getElem? hr)) closure args s
      | native script =>
        cases closure with
        | some closure => exact .refl s
        | none => exact Script.run_keeps hc (script args) s

theorem Code.call_keeps {code : Code} (hcode : code.DefinesRecursion) (depth : Nat) :
    (code.call depth).Keeps := by
  induction depth with
  | zero => exact fun _ _ s => .refl s
  | succ depth ih =>
    intro f args s
    have entered := Code.enter_keeps hcode ih f args s
    have same : (code.call (depth + 1) f args s).2 = (code.enter (code.call depth) f args s).2 := by
      simp only [Code.call, Run.mapHalt]
      split <;> simp_all
    rw [same]
    exact entered

/-- **Closures are snapshots.** Where recursive bindings bind definitions, in the tree and in every
body that can be called, an evaluation leaves each closure that was there exactly as it was, whether
it ends in a value, a cause, a defect or by exhausting its depth. -/
theorem Code.eval_extends (code : Code) (depth : Nat) (n : AnyNode) (a : Activation)
    (hcode : code.DefinesRecursion) (hn : n.node.DefinesRecursion) :
    a.store.Extends (code.eval depth n a).2.store := by
  have evaluated : (code.eval depth n).Keeps :=
    .bind (Node.eval_keeps (Code.call_keeps hcode depth) n.node hn) fun _ => .pure _
  exact evaluated a

/-- The countdown ties its knot beside a closure that was there, and leaves that one alone. -/
theorem countdown_extends :
    Countdown.code.DefinesRecursion ∧ Countdown.tree.node.DefinesRecursion ∧
      (Store.mk #[.allocate Countdown.closure] 0).Extends
        (Countdown.code.eval 9 Countdown.tree
          ⟨.allocate Countdown.layout, ⟨#[.allocate Countdown.closure], 0⟩⟩).2.store :=
  ⟨Countdown.code_definesRecursion, Countdown.tree_definesRecursion,
    Code.eval_extends Countdown.code 9 Countdown.tree
      ⟨.allocate Countdown.layout, ⟨#[.allocate Countdown.closure], 0⟩⟩
      Countdown.code_definesRecursion Countdown.tree_definesRecursion⟩

end TypedEval
