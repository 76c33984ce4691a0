import TypedEval.Call

/-!
# Depth

The depth that a call is given bounds its nesting and nothing else: a run that ended otherwise than
by exhausting its depth ends alike, in value, halt and store, with any greater depth.

The proof compares two ways of calling functions. If one ends as the other wherever the other is
not exhausted, then so do evaluations, scripts and calls that use them.
-/

namespace TypedEval

namespace Run

variable {σ τ α β : Type}

/-- **One run stands below another**: wherever it is not exhausted, the other ends alike. -/
def Below (m n : Run σ α) : Prop := ∀ s, (m s).1 ≠ .error .exhausted → n s = m s

theorem Below.refl (m : Run σ α) : Below m m := fun _ _ => rfl

theorem Below.bind {m n : Run σ α} {f g : α → Run σ β} (h : Below m n)
    (k : ∀ a, Below (f a) (g a)) : Below (m >>= f) (n >>= g) := by
  intro s hs
  rcases hm : m s with ⟨r, t⟩
  cases r with
  | error e =>
    rw [bind_halt hm] at hs ⊢
    have hn : n s = (.error e, t) := by
      rw [← hm]
      exact h s (by rw [hm]; intro he; cases he; exact hs rfl)
    rw [bind_halt hn]
  | ok a =>
    rw [bind_ok hm] at hs ⊢
    have hn : n s = (.ok a, t) := by
      rw [← hm]
      exact h s (by rw [hm]; nofun)
    rw [bind_ok hn]
    exact k a t hs

theorem Below.focus {get : σ → τ} {set : σ → τ → σ} {m n : Run τ α} (h : Below m n) :
    Below (Run.focus get set m) (Run.focus get set n) := by
  intro s hs
  have hn := h (get s) (by simpa [Run.focus] using hs)
  simp [Run.focus, hn]

theorem Below.mapHalt {name : String} {m n : Run σ α} (h : Below m n) :
    Below (m.mapHalt (Halt.within name)) (n.mapHalt (Halt.within name)) := by
  intro s hs
  have hn : n s = m s := by
    apply h
    intro he
    apply hs
    rcases hm : m s with ⟨r, t⟩
    rw [hm] at he
    cases he
    simp [Run.mapHalt, hm, Halt.within]
  simp [Run.mapHalt, hn]

end Run

open Run

/-- One way of calling stands below another for all functions and arguments. -/
def Caller.Below (c d : Caller) : Prop := ∀ f args, Run.Below (c f args) (d f args)

variable {c d : Caller}

theorem callChecked_below (h : Caller.Below c d) (f : Function) (args : List Value) (result : Ty) :
    Run.Below (callChecked c f args result) (callChecked d f args result) :=
  .bind (.focus (h f args)) fun _ => .refl _

mutual

theorem Node.eval_below (h : Caller.Below c d) :
    {family : Family} → (n : Node family) → Run.Below (n.eval c) (n.eval d)
  | _, .bool _ | _, .int _ | _, .float _ | _, .function _ | _, .constant _ | _, .read _ _
  | _, .define _ _ => .refl _
  | _, .not a => .bind (Node.eval_below h a) fun _ => .refl _
  | _, .negateInt a => .bind (Node.eval_below h a) fun _ => .refl _
  | _, .negateFloat a => .bind (Node.eval_below h a) fun _ => .refl _
  | _, .logic op a b => .bind (Node.eval_below h a) fun x => by
    cases op.decided? x with
    | some r => exact .refl _
    | none => exact .bind (Node.eval_below h b) fun _ => .refl _
  | _, .compareInt _ a b =>
    .bind (Node.eval_below h a) fun _ => .bind (Node.eval_below h b) fun _ => .refl _
  | _, .compareFloat _ a b =>
    .bind (Node.eval_below h a) fun _ => .bind (Node.eval_below h b) fun _ => .refl _
  | _, .arithInt _ a b =>
    .bind (Node.eval_below h a) fun _ => .bind (Node.eval_below h b) fun _ => .refl _
  | _, .arithFloat _ a b =>
    .bind (Node.eval_below h a) fun _ => .bind (Node.eval_below h b) fun _ => .refl _
  | _, .cond test a b => .bind (Node.eval_below h test) fun x => by
    cases x with
    | false => exact Node.eval_below h b
    | true => exact Node.eval_below h a
  | _, .block bs body => .bind (Bindings.execute_below h bs) fun _ => Node.eval_below h body
  | _, .call callee args _ =>
    .bind (Node.eval_below h callee) fun _ => .bind (Nodes.eval_below h args) fun _ =>
      .bind (callChecked_below h _ _ _) fun _ => .refl _
  | _, .index seq i _ =>
    .bind (Node.eval_below h seq) fun _ => .bind (.refl _) fun _ =>
      .bind (Node.eval_below h i) fun _ => .refl _
  | _, .slice seq slicer =>
    .bind (Node.eval_below h seq) fun _ => .bind (.refl _) fun _ =>
      .bind (Node.eval_below h slicer) fun _ => .refl _
  | _, .array _ items => .bind (Nodes.fill_below h items _) fun _ => .refl _
  | _, .intRange first last step =>
    .bind (Part.eval_below h first) fun _ => .bind (Part.eval_below h last) fun _ =>
      .bind (Part.eval_below h step) fun _ => .refl _
  | _, .floatRange first last step =>
    .bind (Part.eval_below h first) fun _ => .bind (Part.eval_below h last) fun _ =>
      .bind (Part.eval_below h step) fun _ => .refl _

theorem Nodes.eval_below (h : Caller.Below c d) :
    (ns : Nodes) → Run.Below (ns.eval c) (ns.eval d)
  | .nil => .refl _
  | .cons _ n ns =>
    .bind (Node.eval_below h n) fun _ => .bind (Nodes.eval_below h ns) fun _ => .refl _

theorem Nodes.fill_below (h : Caller.Below c d) :
    (ns : Nodes) → (b : Builder) → Run.Below (ns.fill c b) (ns.fill d b)
  | .nil, _ => .refl _
  | .cons _ n ns, _ =>
    .bind (Node.eval_below h n) fun _ => .bind (.refl _) fun _ => Nodes.fill_below h ns _

theorem Part.eval_below (h : Caller.Below c d) :
    {family : Family} → (p : Part family) → Run.Below (p.eval c) (p.eval d)
  | _, .none => .refl _
  | _, .some n => .bind (Node.eval_below h n) fun _ => .refl _

theorem Bindings.execute_below (h : Caller.Below c d) :
    (bs : Bindings) → Run.Below (bs.execute c) (bs.execute d)
  | .nil => .refl _
  | .bind _ _ n rest =>
    .bind (Node.eval_below h n) fun _ => .bind (.refl _) fun _ => Bindings.execute_below h rest
  | .bindRec _ n _ rest =>
    .bind (Node.eval_below h n) fun _ => .bind (.refl _) fun _ => .bind (.refl _) fun _ =>
      Bindings.execute_below h rest

end

theorem AnyNode.eval_below (h : Caller.Below c d) (n : AnyNode) :
    Run.Below (n.eval c) (n.eval d) :=
  .bind (Node.eval_below h n.node) fun _ => .refl _

theorem Script.run_below (h : Caller.Below c d) {α : Type} (m : Script α) :
    Run.Below (m.run c) (m.run d) := by
  induction m with
  | done a => exact .refl _
  | fail f => exact .refl _
  | newStorage next ih => exact .bind (.refl _) ih
  | resolve f next ih => exact .bind (.refl _) fun _ => ih
  | call f args next ih => exact .bind (h f args) ih

theorem Body.run_below (h : Caller.Below c d) (b : Body) (closure : Option (Nat × Frame))
    (args : List Value) : Run.Below (b.run c closure args) (b.run d closure args) := by
  intro s hs
  unfold Body.run at hs ⊢
  split
  · rfl
  · next heq =>
    simp only [heq] at hs
    have hn := AnyNode.eval_below h b.node _ hs
    simp [hn]

theorem Routine.run_below (h : Caller.Below c d) (r : Routine) (name : String)
    (closure : Option (Nat × Frame)) (args : List Value) :
    Run.Below (r.run c name closure args) (r.run d name closure args) := by
  cases r with
  | user body => exact Body.run_below h body closure args
  | native script =>
    cases closure with
    | none => exact Script.run_below h _
    | some closure => exact .refl _

theorem Code.enter_below (code : Code) (h : Caller.Below c d) (f : Function) (args : List Value) :
    Run.Below (code.enter c f args) (code.enter d f args) :=
  .bind (.refl _) fun _ => by
    cases code.routine? f.target with
    | none => exact .refl _
    | some r => exact Routine.run_below h r _ _ _

/-- Calls with one more level of depth stand above. -/
theorem Code.call_succ_below (code : Code) (depth : Nat) :
    Caller.Below (code.call depth) (code.call (depth + 1)) := by
  induction depth with
  | zero =>
    intro f args s hs
    exact absurd rfl hs
  | succ n ih =>
    intro f args
    exact .mapHalt (Code.enter_below code ih f args)

/-- **A call that did not exhaust its depth ends alike with any greater depth.** -/
theorem Code.call_of_le (code : Code) {depth more : Nat} (hle : depth ≤ more) :
    Caller.Below (code.call depth) (code.call more) := by
  induction hle with
  | refl => exact fun _ _ => .refl _
  | @step m _ ih =>
    intro f args s hs
    have hm := ih f args s hs
    rw [← hm]
    exact Code.call_succ_below code m f args s (by rw [hm]; exact hs)

/-- **An evaluation that did not exhaust its depth ends alike with any greater depth.** -/
theorem Code.eval_of_le (code : Code) {depth more : Nat} (hle : depth ≤ more) (n : AnyNode) :
    Run.Below (code.eval depth n) (code.eval more n) :=
  AnyNode.eval_below (Code.call_of_le code hle) n

end TypedEval
