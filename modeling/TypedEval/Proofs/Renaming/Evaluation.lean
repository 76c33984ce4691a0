import TypedEval.Program
import TypedEval.Proofs.Node.Items
import TypedEval.Proofs.Renaming.Natives

/-!
# Evaluation under new numbers

Evaluation treats the numbers of closures and storages as names. Where a relabeling is one-to-one and
leaves the constants of the tree and of the code table alone, and the host functions see no numbers, an
evaluation in a renamed activation follows the evaluation in the first one, to the renamed value or the
same halt, with the same trace and at the same depth (`Node.eval_follows`, `Code.call_follows`).

The constants are what a tree holds numbers in. Everything else that it computes with comes from them,
from the frame, or from the store.
-/

namespace TypedEval

/-- A constant that a relabeling leaves alone. -/
def Item.FixedBy (ρ : Relabeling) : Item → Prop
  | .constant v => v.rename ρ = v
  | _ => True

/-- **A way of calling follows another** under new numbers. -/
def Caller.Follows (ρ : Relabeling) (last : Store) (c d : Caller) : Prop :=
  ∀ f args, Run.Follows (.stores ρ last) (Value.rename ρ) (c f args)
    (d (f.rename ρ) (args.map (Value.rename ρ)))

section

variable {ρ : Relabeling} {last : Store} {c d : Caller}

theorem callChecked_follows (hc : Caller.Follows ρ last c d) (f : Function) (args : List Value)
    (result : Ty) :
    Run.Follows (.activations ρ last) (Value.rename ρ) (callChecked c f args result)
      (callChecked d (f.rename ρ) (args.map (Value.rename ρ)) result) := by
  refine .bind (.onStore (hc f args)) fun v => ?_
  simp only [Value.family_rename, Function.text_rename]
  split
  · exact .pure v
  · exact .halt _

mutual

/-- **A node evaluated under new numbers** hands over the same thing under new numbers. -/
theorem Node.eval_follows (hρ : ρ.OneToOne) (hc : Caller.Follows ρ last c d) :
    {family : Family} → (n : Node family) → n.All (Item.FixedBy ρ) →
      Run.Follows (.activations ρ last) (family.rename ρ) (n.eval c) (n.eval d)
  | _, .bool b, _ => .pure b
  | _, .int n, _ => .pure n
  | _, .float x, _ => .pure x
  | _, .function f, h => .ends (Value.function.inj (h.symm.trans (Value.rename_function ρ f)))
  | _, .constant v, h => .ends (Eq.symm h)
  | family, .read slot _, _ => .readFrame fun frame => frame.readAs_rename ρ slot family
  | _, .not a, h => .bind (Node.eval_follows hρ hc a h) fun x => .pure _
  | _, .negateInt a, h => .bind (Node.eval_follows hρ hc a h) fun x => .same rfl fun _ => rfl
  | _, .negateFloat a, h => .bind (Node.eval_follows hρ hc a h) fun x => .pure _
  | _, .logic op a b, h => .bind (Node.eval_follows hρ hc a h.1) fun x => by
    show Run.Follows _ _ (match op.decided? x with | some r => _ | none => _)
      (match op.decided? x with | some r => _ | none => _)
    cases op.decided? x with
    | some r => exact .pure r
    | none => exact .bind (Node.eval_follows hρ hc b h.2) fun _ => .pure _
  | _, .compareInt _ a b, h =>
    .bind (Node.eval_follows hρ hc a h.1) fun _ => .bind (Node.eval_follows hρ hc b h.2) fun _ => .pure _
  | _, .compareFloat _ a b, h =>
    .bind (Node.eval_follows hρ hc a h.1) fun _ => .bind (Node.eval_follows hρ hc b h.2) fun _ => .pure _
  | _, .arithInt op a b, h =>
    .bind (Node.eval_follows hρ hc a h.1) fun x => .bind (Node.eval_follows hρ hc b h.2) fun y =>
      .same rfl fun _ => rfl
  | _, .arithFloat _ a b, h =>
    .bind (Node.eval_follows hρ hc a h.1) fun _ => .bind (Node.eval_follows hρ hc b h.2) fun _ => .pure _
  | _, .cond test a b, h => .bind (Node.eval_follows hρ hc test h.1) fun x => by
    cases x with
    | false => exact Node.eval_follows hρ hc b h.2.2
    | true => exact Node.eval_follows hρ hc a h.2.1
  | _, .block bs body, h =>
    .bind (Bindings.execute_follows hρ hc bs h.1) fun _ => Node.eval_follows hρ hc body h.2
  | family, .call callee args result, h =>
    .bind (Node.eval_follows hρ hc callee h.1) fun f =>
      .bind (Nodes.eval_follows hρ hc args h.2) fun values =>
        .bind (callChecked_follows hc f values result) fun v =>
          .defect (family.unbox_rename ρ v)
  | family, .index seq i _, h =>
    .bind (Node.eval_follows hρ hc seq h.1) fun v =>
      .bind (.defect (Value.expectView_rename ρ v)) fun w =>
        .bind (Node.eval_follows hρ hc i h.2) fun i => .check (w.getAs_rename ρ family i)
  | _, .slice seq slicer, h =>
    .bind (Node.eval_follows hρ hc seq h.1) fun v =>
      .bind (.defect (Value.expectView_rename ρ v)) fun w =>
        .bind (Node.eval_follows hρ hc slicer h.2) fun v =>
          .bind (g := id) (.same (congrArg liftM (Value.expectRange_rename ρ v)) fun _ => rfl) fun r =>
            .bind (g := id) (.same rfl fun _ => rfl) fun r =>
              .bind (.check (w.slice_rename ρ r)) fun u => .ends (Value.rename_slice ρ u).symm
  | _, .array element items, h => by
    have filled := Nodes.fill_follows hρ hc items h (.new element)
    rw [Builder.new_rename] at filled
    refine .bind filled fun b => .bind (.onStore newStorage_follows) fun id => .ends ?_
    exact (Value.rename_array ρ (b.finish id)).symm
  | _, .intRange first last step, h => by
    refine .bind (Part.eval_follows hρ hc first h.1) fun x =>
      .bind (Part.eval_follows hρ hc last h.2.1) fun y =>
        .bind (Part.eval_follows hρ hc step h.2.2) fun z => .bind (g := id) ?_ fun r =>
          .ends (Value.rename_range ρ _).symm
    simp only [show Family.rename ρ .int = id from rfl, Option.map_id, id]
    exact .same rfl fun _ => rfl
  | _, .floatRange first last step, h => by
    refine .bind (Part.eval_follows hρ hc first h.1) fun x =>
      .bind (Part.eval_follows hρ hc last h.2.1) fun y =>
        .bind (Part.eval_follows hρ hc step h.2.2) fun z => .bind (g := id) ?_ fun r =>
          .ends (Value.rename_range ρ _).symm
    simp only [show Family.rename ρ .float = id from rfl, Option.map_id, id]
    exact .same rfl fun _ => rfl
  | _, .define target capture, _ => instantiate_follows hρ target capture

theorem Nodes.eval_follows (hρ : ρ.OneToOne) (hc : Caller.Follows ρ last c d) :
    (ns : Nodes) → ns.All (Item.FixedBy ρ) →
      Run.Follows (.activations ρ last) (List.map (Value.rename ρ)) (ns.eval c) (ns.eval d)
  | .nil, _ => .pure []
  | .cons family n ns, h =>
    .bind (Node.eval_follows hρ hc n h.1) fun x =>
      .bind (Nodes.eval_follows hρ hc ns h.2) fun rest => by
        rw [family.box_rename]
        exact .pure (family.box x :: rest)

theorem Nodes.fill_follows (hρ : ρ.OneToOne) (hc : Caller.Follows ρ last c d) :
    (ns : Nodes) → ns.All (Item.FixedBy ρ) → (b : Builder) →
      Run.Follows (.activations ρ last) (Builder.rename ρ) (ns.fill c b) (ns.fill d (b.rename ρ))
  | .nil, _, b => .pure b
  | .cons family n ns, h, b =>
    .bind (Node.eval_follows hρ hc n h.1) fun x =>
      .bind (.check (b.pushAs_rename ρ family x)) fun b => Nodes.fill_follows hρ hc ns h.2 b

theorem Part.eval_follows (hρ : ρ.OneToOne) (hc : Caller.Follows ρ last c d) :
    {family : Family} → (p : Part family) → p.All (Item.FixedBy ρ) →
      Run.Follows (.activations ρ last) (Option.map (family.rename ρ)) (p.eval c) (p.eval d)
  | _, .none, _ => .pure none
  | _, .some n, h => .bind (Node.eval_follows hρ hc n h) fun x => .pure (some x)

theorem Bindings.execute_follows (hρ : ρ.OneToOne) (hc : Caller.Follows ρ last c d) :
    (bs : Bindings) → bs.All (Item.FixedBy ρ) →
      Run.Follows (.activations ρ last) id (bs.execute c) (bs.execute d)
  | .nil, _ => .pure ()
  | .bind family slot n rest, h =>
    .bind (Node.eval_follows hρ hc n h.1) fun x =>
      .bind (.updateFrame fun frame => frame.writeAs_rename ρ slot family x) fun _ =>
        Bindings.execute_follows hρ hc rest h.2
  | .bindRec slot n closureSlot rest, h =>
    .bind (Node.eval_follows hρ hc n h.2.1) fun f =>
      .bind (.updateFrame fun frame => frame.writeFunction_rename ρ slot f) fun _ =>
        .bind (tieKnot_follows hρ slot closureSlot) fun _ => Bindings.execute_follows hρ hc rest h.2.2

end

/-! ## Calls -/

variable {code : Code} (hρ : ρ.OneToOne) (hcode : code.All (Item.FixedBy ρ))
  (hnative : code.IsOpaque)

include hρ in
theorem AnyNode.eval_follows (hc : Caller.Follows ρ last c d) (n : AnyNode)
    (hn : n.node.All (Item.FixedBy ρ)) :
    Run.Follows (.activations ρ last) (Value.rename ρ) (n.eval c) (n.eval d) :=
  .bind (Node.eval_follows hρ hc n.node hn) fun x => .ends (n.family.box_rename ρ x)

include hρ in
/-- **A body run with renamed closure and arguments**, in a frame of its own. -/
theorem Body.run_follows (hc : Caller.Follows ρ last c d) (b : Body)
    (hb : b.node.node.All (Item.FixedBy ρ)) (closure : Option (Nat × Frame)) (args : List Value) :
    Run.Follows (.stores ρ last) (Value.rename ρ) (b.run c closure args)
      (b.run d (closure.map (renameClosure ρ)) (args.map (Value.rename ρ))) := by
  intro s covered
  have entered := (Body.enter_follows ρ b closure args (.allocate b.frame) trivial).2
    (.allocate b.frame) (Frame.rename_allocate ρ b.frame).symm
  unfold Body.run at covered ⊢
  rcases hs : b.enter closure args (.allocate b.frame) with ⟨r, frame⟩
  rcases ht : b.enter (closure.map (renameClosure ρ)) (args.map (Value.rename ρ))
    (.allocate b.frame) with ⟨r', frame'⟩
  rw [hs, ht] at entered
  rw [hs] at covered
  obtain ⟨value, after⟩ := entered
  cases value
  cases r with
  | error e => exact ⟨covered, fun t hst => ⟨rfl, hst⟩⟩
  | ok u =>
    obtain ⟨before, follows⟩ := AnyNode.eval_follows hρ hc b.node hb ⟨frame, s⟩ covered
    refine ⟨before, fun t hst => ?_⟩
    have evaluated := follows ⟨frame', t⟩ ⟨after, hst⟩
    exact ⟨evaluated.1, evaluated.2.2⟩

include hρ hcode hnative in
theorem Code.enter_follows (hc : Caller.Follows ρ last c d) :
    Caller.Follows ρ last (code.enter c) (code.enter d) := by
  intro f args
  refine .bind (g := Option.map (renameClosure ρ)) (.read fun s t hst => ?_) fun closure => ?_
  · rw [f.closureIn_rename hst, lift_defect_map]
  simp only [Code.routine?, Function.target_rename, Function.displayName_rename]
  cases hr : code.routines[f.target.id]? with
  | none => exact .halt _
  | some routine =>
    have mem := Array.mem_of_getElem? hr
    cases routine with
    | user body => exact Body.run_follows hρ hc body (hcode body mem) closure args
    | native script =>
      cases closure with
      | some closure => exact .halt _
      | none => exact (hnative script mem ρ hρ args).run_follows hc

include hρ hcode hnative in
/-- **A call under new numbers** returns the same value under new numbers, or halts alike. -/
theorem Code.call_follows (depth : Nat) :
    Caller.Follows ρ last (code.call depth) (code.call depth) := by
  induction depth with
  | zero => exact fun _ _ => .halt _
  | succ depth ih => exact fun f args => .mapHalt (Code.enter_follows hρ hcode hnative ih f args) _

include hρ hcode hnative in
/-- **A program executed under new numbers.** -/
theorem Program.execute_follows (p : Program) (hp : p.body.node.All (Item.FixedBy ρ)) (depth : Nat) :
    Run.Follows (.stores ρ last) (Value.rename ρ) (p.execute code depth) (p.execute code depth) := by
  intro s covered
  obtain ⟨before, follows⟩ := AnyNode.eval_follows hρ (Code.call_follows hρ hcode hnative depth)
    p.body hp ⟨.allocate p.layout, s⟩ covered
  refine ⟨before, fun t hst => ?_⟩
  have evaluated := follows ⟨.allocate p.layout, t⟩ ⟨(Frame.rename_allocate ρ _).symm, hst⟩
  exact ⟨evaluated.1, evaluated.2.2⟩

end

end TypedEval
