import TypedEval.Program
import TypedEval.Proofs.Closure.Basic

/-!
# What lasts in a store

A store changes in three ways: a storage is numbered, a closure is made, a closure is written to. A
property that none of them ends **lasts** (`Store.Lasting`), and then no evaluation, script or call ends
it, however it ends itself. This is said once here for all such properties and all trees; nothing is
asked of the code.

What is needed of it elsewhere is that numbers are given out in order and never again
(`Program.upTo_execute`).
-/

namespace TypedEval

/-- **A property of stores lasts** through everything that happens to a store. -/
structure Store.Lasting (P : Store → Prop) : Prop where
  newStorage : ∀ s : Store, P s → P { s with storages := s.storages + 1 }
  addClosure : ∀ (s : Store) (frame : Frame), P s → P (s.addClosure frame).2
  setClosure : ∀ (s : Store) (id : Nat) (frame : Frame), P s → P (s.setClosure id frame)

/-- A run does not end a property of stores. -/
def Run.Passes {α : Type} (P : Store → Prop) (m : Run Activation α) : Prop :=
  ∀ a : Activation, P a.store → P (m a).2.store

/-- A way of calling does not end a property of stores. -/
def Caller.Passes (P : Store → Prop) (call : Caller) : Prop :=
  ∀ f args (s : Store), P s → P (call f args s).2

section

variable {P : Store → Prop}

namespace Run.Passes

variable {α β : Type}

theorem bind {m : Run Activation α} {f : α → Run Activation β} (h : m.Passes P)
    (k : ∀ x, (f x).Passes P) : (m >>= f).Passes P := by
  intro a ha
  have first := h a ha
  rcases hm : m a with ⟨r, b⟩
  rw [hm] at first
  cases r with
  | error e => rw [bind_halt hm]; exact first
  | ok x => rw [bind_ok hm]; exact k x b first

/-- A run that leaves the store alone. -/
theorem of_store {m : Run Activation α} (h : ∀ a, (m a).2.store = a.store) : m.Passes P := by
  intro a ha
  rw [h a]
  exact ha

theorem pure (x : α) : (Pure.pure x : Run Activation α).Passes P := .of_store fun _ => rfl

theorem check (x : Except Fault α) : (Run.check x : Run Activation α).Passes P :=
  .of_store fun _ => by cases x <;> rfl

theorem fault (f : Fault) : (Run.fault f : Run Activation α).Passes P := .of_store fun _ => rfl

theorem read (f : Activation → Except Fault α) : (Run.read f).Passes P :=
  .of_store fun a => by
    unfold Run.read
    cases f a <;> rfl

theorem updateFrame (f : Frame → Except Fault Frame) : (Activation.updateFrame f).Passes P :=
  .of_store fun _ => rfl

theorem onStore {m : Run Store α} (h : ∀ s, P s → P (m s).2) : (Activation.onStore m).Passes P :=
  fun a => h a.store

end Run.Passes

section

variable (hP : Store.Lasting P)

include hP

theorem newStorage_passes : (Activation.onStore Store.newStorage).Passes P := .onStore hP.newStorage

theorem instantiate_passes (target : Target) (capture : Capture) :
    (instantiate target capture).Passes P := by
  intro a ha
  obtain ⟨-, h⟩ | ⟨f, -, h⟩ | ⟨frame, -, h⟩ := instantiate_cases target capture a
  · rw [h]; exact ha
  · rw [h]; exact ha
  · rw [h]; exact hP.addClosure _ frame ha

theorem ensureClosure_passes (slot : Nat) (f : Function) : (ensureClosure slot f).Passes P := by
  refine .bind (.read _) fun r => ?_
  cases r with
  | some closure => exact .pure _
  | none =>
    simp only
    split
    · exact .bind (.read _) fun s => .fault _
    · next layout _ =>
      refine .bind (.onStore fun s hs => hP.addClosure s (.allocate layout) hs) fun id => ?_
      exact .bind (.updateFrame _) fun _ => .pure _

theorem writeSelf_passes (id closureSlot : Nat) (f : Function) {s : Store} (hs : P s) :
    P (writeSelf id closureSlot f s).2 := by
  unfold writeSelf Run.update
  split
  · next t ht =>
    simp only at ht
    split at ht
    · cases ht
    · obtain ⟨frame, _, ht⟩ := bind_eq_ok.mp ht
      cases ht
      exact hP.setClosure s id frame hs
  · exact hs

theorem tieKnot_passes (slot closureSlot : Nat) : (tieKnot slot closureSlot).Passes P :=
  .bind (.read _) fun f => .bind (ensureClosure_passes hP slot f) fun r =>
    .onStore fun _ hs => writeSelf_passes hP r.1 closureSlot r.2 hs

end

theorem callChecked_passes {call : Caller} (h : call.Passes P) (f : Function) (args : List Value)
    (result : Ty) : (callChecked call f args result).Passes P :=
  .bind (.onStore (h f args)) fun v => by
    split
    · exact .pure v
    · exact .fault _

/-! ## Evaluation -/

variable {call : Caller}

mutual

theorem Node.eval_passes (hP : Store.Lasting P) (hc : call.Passes P) :
    {family : Family} → (n : Node family) → (n.eval call).Passes P
  | _, .bool b => .pure b
  | _, .int n => .pure n
  | _, .float x => .pure x
  | _, .function f => .pure f
  | _, .constant v => .pure v
  | _, .read _ _ => .read _
  | _, .not a => .bind (Node.eval_passes hP hc a) fun _ => .pure _
  | _, .negateInt a => .bind (Node.eval_passes hP hc a) fun _ => .check _
  | _, .negateFloat a => .bind (Node.eval_passes hP hc a) fun _ => .pure _
  | _, .logic op a b => .bind (Node.eval_passes hP hc a) fun x => by
    cases op.decided? x with
    | some r => exact .pure r
    | none => exact .bind (Node.eval_passes hP hc b) fun _ => .pure _
  | _, .compareInt _ a b =>
    .bind (Node.eval_passes hP hc a) fun _ => .bind (Node.eval_passes hP hc b) fun _ => .pure _
  | _, .compareFloat _ a b =>
    .bind (Node.eval_passes hP hc a) fun _ => .bind (Node.eval_passes hP hc b) fun _ => .pure _
  | _, .arithInt _ a b =>
    .bind (Node.eval_passes hP hc a) fun _ => .bind (Node.eval_passes hP hc b) fun _ => .check _
  | _, .arithFloat _ a b =>
    .bind (Node.eval_passes hP hc a) fun _ => .bind (Node.eval_passes hP hc b) fun _ => .pure _
  | _, .cond test a b => .bind (Node.eval_passes hP hc test) fun x => by
    cases x with
    | false => exact Node.eval_passes hP hc b
    | true => exact Node.eval_passes hP hc a
  | _, .block bs body =>
    .bind (Bindings.execute_passes hP hc bs) fun _ => Node.eval_passes hP hc body
  | _, .call callee args _ =>
    .bind (Node.eval_passes hP hc callee) fun _ => .bind (Nodes.eval_passes hP hc args) fun _ =>
      .bind (callChecked_passes hc _ _ _) fun _ => .check _
  | _, .index seq i _ =>
    .bind (Node.eval_passes hP hc seq) fun _ => .bind (.check _) fun _ =>
      .bind (Node.eval_passes hP hc i) fun _ => .check _
  | _, .slice seq slicer =>
    .bind (Node.eval_passes hP hc seq) fun _ => .bind (.check _) fun _ =>
      .bind (Node.eval_passes hP hc slicer) fun _ => .bind (.check _) fun _ =>
        .bind (.check _) fun _ => .bind (.check _) fun _ => .pure _
  | _, .array _ items =>
    .bind (Nodes.fill_passes hP hc items _) fun _ => .bind (newStorage_passes hP) fun _ => .pure _
  | _, .intRange first last step =>
    .bind (Part.eval_passes hP hc first) fun _ => .bind (Part.eval_passes hP hc last) fun _ =>
      .bind (Part.eval_passes hP hc step) fun _ => .bind (.check _) fun _ => .pure _
  | _, .floatRange first last step =>
    .bind (Part.eval_passes hP hc first) fun _ => .bind (Part.eval_passes hP hc last) fun _ =>
      .bind (Part.eval_passes hP hc step) fun _ => .bind (.check _) fun _ => .pure _
  | _, .define target capture => instantiate_passes hP target capture

theorem Nodes.eval_passes (hP : Store.Lasting P) (hc : call.Passes P) :
    (ns : Nodes) → (ns.eval call).Passes P
  | .nil => .pure _
  | .cons _ n ns =>
    .bind (Node.eval_passes hP hc n) fun _ => .bind (Nodes.eval_passes hP hc ns) fun _ => .pure _

theorem Nodes.fill_passes (hP : Store.Lasting P) (hc : call.Passes P) :
    (ns : Nodes) → (b : Builder) → (ns.fill call b).Passes P
  | .nil, _ => .pure _
  | .cons _ n ns, _ =>
    .bind (Node.eval_passes hP hc n) fun _ => .bind (.check _) fun b => Nodes.fill_passes hP hc ns b

theorem Part.eval_passes (hP : Store.Lasting P) (hc : call.Passes P) :
    {family : Family} → (p : Part family) → (p.eval call).Passes P
  | _, .none => .pure _
  | _, .some n => .bind (Node.eval_passes hP hc n) fun _ => .pure _

theorem Bindings.execute_passes (hP : Store.Lasting P) (hc : call.Passes P) :
    (bs : Bindings) → (bs.execute call).Passes P
  | .nil => .pure _
  | .bind _ _ n rest =>
    .bind (Node.eval_passes hP hc n) fun _ => .bind (.updateFrame _) fun _ =>
      Bindings.execute_passes hP hc rest
  | .bindRec slot n closureSlot rest =>
    .bind (Node.eval_passes hP hc n) fun _ => .bind (.updateFrame _) fun _ =>
      .bind (tieKnot_passes hP slot closureSlot) fun _ => Bindings.execute_passes hP hc rest

end

/-! ## Calls -/

variable (hP : Store.Lasting P)

include hP

theorem Script.run_passes (hc : call.Passes P) {α : Type} (m : Script α) {s : Store} (hs : P s) :
    P (m.run call s).2 := by
  induction m generalizing s with
  | done a => exact hs
  | fail f => exact hs
  | newStorage next ih => exact ih s.storages (hP.newStorage s hs)
  | resolve f next ih =>
    cases hclosure : f.closureIn s with
    | error d => rw [Script.run_resolve_error call hclosure]; exact hs
    | ok c => rw [Script.run_resolve_ok call hclosure]; exact ih hs
  | call f args next ih =>
    have first := hc f args s hs
    rcases hcall : call f args s with ⟨r, t⟩
    rw [hcall] at first
    cases r with
    | error e => rw [Script.run, Run.bind_halt hcall]; exact first
    | ok v => rw [Script.run, Run.bind_ok hcall]; exact ih v first

theorem Code.enter_passes (code : Code) (hc : call.Passes P) :
    Caller.Passes P (code.enter call) := by
  intro f args s hs
  cases hclosure : f.closureIn s with
  | error e =>
    have halted : (Run.read fun t : Store => liftM (f.closureIn t)) s =
        (.error (.fault (.defect e) []), s) := by
      simp [Run.read, Run.check, hclosure]
    rw [Code.enter, Run.bind_halt halted]
    exact hs
  | ok closure =>
    have looked : (Run.read fun t : Store => liftM (f.closureIn t)) s = (.ok closure, s) := by
      simp [Run.read, Run.check, hclosure]
    rw [Code.enter, Run.bind_ok looked]
    cases code.routine? f.target with
    | none => exact hs
    | some routine =>
      cases routine with
      | user body =>
        simp only [Routine.run, Body.run]
        split
        · exact hs
        · next frame _ =>
          have evaluated : (body.node.eval call).Passes P :=
            .bind (Node.eval_passes hP hc body.node.node) fun _ => .pure _
          exact evaluated ⟨frame, s⟩ hs
      | native script =>
        cases closure with
        | some closure => exact hs
        | none => exact Script.run_passes hP hc (script args) hs

theorem Code.call_passes (code : Code) (depth : Nat) : (code.call depth).Passes P := by
  induction depth with
  | zero => exact fun _ _ _ hs => hs
  | succ depth ih =>
    intro f args s hs
    have entered := Code.enter_passes hP code ih f args s hs
    simp only [Code.call, Run.mapHalt]
    split <;> simp_all

/-- **What lasts is there after an execution**, if it was there before. -/
theorem Program.execute_passes (p : Program) (code : Code) (depth : Nat) {s : Store} (hs : P s) :
    P (p.execute code depth s).2 := by
  have evaluated : (p.body.eval (code.call depth)).Passes P :=
    .bind (Node.eval_passes hP (Code.call_passes hP code depth) p.body.node) fun _ => .pure _
  exact evaluated ⟨.allocate p.layout, s⟩ hs

end

/-- Every number that a store has given out, a later one has too. -/
structure Store.UpTo (s last : Store) : Prop where
  closures : s.closures.size ≤ last.closures.size
  storages : s.storages ≤ last.storages

/-- **No execution takes a number back.** -/
theorem Program.upTo_execute (p : Program) (code : Code) (depth : Nat) (s : Store) :
    s.UpTo (p.execute code depth s).2 := by
  refine p.execute_passes (P := s.UpTo) ⟨?_, ?_, ?_⟩ code depth ⟨Nat.le_refl _, Nat.le_refl _⟩
  · exact fun _ h => ⟨h.closures, Nat.le_succ_of_le h.storages⟩
  · exact fun _ _ h =>
      ⟨by simpa [Store.addClosure] using Nat.le_succ_of_le h.closures, h.storages⟩
  · exact fun _ _ _ h => ⟨by simpa [Store.setClosure] using h.closures, h.storages⟩

end TypedEval
