import TypedEval.Call
import TypedEval.Proofs.Closure.Basic
import TypedEval.Proofs.Node.Recursion

/-!
# Locality of evaluation

A node touches the frame that it is evaluated in only through the slots that it names. `Node.uses`
lists them: a slot read and the source of a capture **read** a slot, a binding **writes** one. The
bodies of functions run in frames of their own and count for nothing.

The law (`Code.eval_locality`): in two frames of one layout that agree on the slots that are read, a
node ends alike, in value, halt and store; a slot that is not written stays as it was in both, and
one that is written stays so in both or ends with the same contents in both.

`Run.Local` is the judgment about one run, for two frames at once. It composes along `>>=` because
what a run leaves behind agrees again on the slots that are read. The knot of a recursive binding
reads a slot that no node names: the one that was written right before it (`Local.bind_write`).
-/

namespace TypedEval

/-! ## The slots of a tree -/

/-- **A use of a slot** of the frame that a node is evaluated in. -/
inductive SlotUse where
  | read (slot : Nat)
  | write (slot : Nat)
  deriving DecidableEq

/-- The slots that a capture reads. -/
def Capture.uses (c : Capture) : List SlotUse := c.transfers.map fun t => .read t.source

mutual

/-- **The uses of slots in a node**, outside the bodies of functions. -/
def Node.uses : {family : Family} → Node family → List SlotUse
  | _, .bool _ | _, .int _ | _, .float _ | _, .function _ | _, .constant _ => []
  | _, .read slot _ => [.read slot]
  | _, .define _ capture => capture.uses
  | _, .not a => a.uses
  | _, .negateInt a => a.uses
  | _, .negateFloat a => a.uses
  | _, .logic _ a b => a.uses ++ b.uses
  | _, .compareInt _ a b => a.uses ++ b.uses
  | _, .compareFloat _ a b => a.uses ++ b.uses
  | _, .arithInt _ a b => a.uses ++ b.uses
  | _, .arithFloat _ a b => a.uses ++ b.uses
  | _, .cond test a b => test.uses ++ (a.uses ++ b.uses)
  | _, .block bindings body => bindings.uses ++ body.uses
  | _, .call callee args _ => callee.uses ++ args.uses
  | _, .index seq i _ => seq.uses ++ i.uses
  | _, .slice seq slicer => seq.uses ++ slicer.uses
  | _, .array _ items => items.uses
  | _, .intRange first last step => first.uses ++ (last.uses ++ step.uses)
  | _, .floatRange first last step => first.uses ++ (last.uses ++ step.uses)

/-- The uses of slots in nodes. -/
def Nodes.uses : Nodes → List SlotUse
  | .nil => []
  | .cons _ n ns => n.uses ++ ns.uses

/-- The uses of slots in a part of a range. -/
def Part.uses : {family : Family} → Part family → List SlotUse
  | _, .none => []
  | _, .some n => n.uses

/-- The uses of slots in bindings, each of which writes its slot. -/
def Bindings.uses : Bindings → List SlotUse
  | .nil => []
  | .bind _ slot n rest => .write slot :: (n.uses ++ rest.uses)
  | .bindRec slot n _ rest => .write slot :: (n.uses ++ rest.uses)

end

/-- The uses of slots in a node of any family. -/
def AnyNode.uses (n : AnyNode) : List SlotUse := n.node.uses

/-! ## Two frames of one layout -/

namespace Frame

variable {F G : Frame} {i : Nat}

theorem size_eq_of_layout (h : F.layout = G.layout) : F.size = G.size := by
  have sizes := congrArg Layout.size h
  simp only [Layout.size, layout, Array.size_map] at sizes
  exact sizes

/-- Frames of one layout have the same slots, up to their contents. -/
theorem slots_of_layout (h : F.layout = G.layout) (i : Nat) :
    (F.slots[i]? = none ∧ G.slots[i]? = none) ∨
    (∃ s t, F.slots[i]? = some s ∧ G.slots[i]? = some t ∧ s.toDeclaration = t.toDeclaration) := by
  have same := congrArg (fun l => l.slots[i]?) h
  simp only [layout, Array.getElem?_map] at same
  cases hF : F.slots[i]? with
  | none =>
    rw [hF] at same
    exact .inl ⟨rfl, Option.map_eq_none_iff.mp same.symm⟩
  | some s =>
    rw [hF] at same
    obtain ⟨t, hG, hd⟩ := Option.map_eq_some_iff.mp same.symm
    exact .inr ⟨s, t, rfl, hG, hd.symm⟩

theorem slot_congr (h : F.layout = G.layout) (hi : F.slots[i]? = G.slots[i]?) :
    F.slot i = G.slot i := by
  simp only [slot, hi, size_eq_of_layout h]

theorem slotIn_congr (h : F.layout = G.layout) (hi : F.slots[i]? = G.slots[i]?) (c : Category) :
    F.slotIn i c = G.slotIn i c := by
  simp only [slotIn, slot_congr h hi]

/-- What is read depends on the slot alone. -/
theorem readAs_congr (h : F.layout = G.layout) (hi : F.slots[i]? = G.slots[i]?)
    (family : Family) : F.readAs family i = G.readAs family i := by
  cases family <;>
    simp only [readAs, readBool, readInt, readFloat, readFunction, readReference,
      slotIn_congr h hi]

theorem copySlot_congr (h : F.layout = G.layout) {t : Transfer}
    (ht : F.slots[t.source]? = G.slots[t.source]?) (target : Frame) :
    copySlot F t target = copySlot G t target := by
  simp only [copySlot, slot_congr h ht]

end Frame

theorem copySlots_congr {F G : Frame} (h : F.layout = G.layout) {ts : List Transfer}
    (hts : ∀ t ∈ ts, F.slots[t.source]? = G.slots[t.source]?) (target : Frame) :
    copySlots F ts target = copySlots G ts target := by
  induction ts generalizing target with
  | nil => rfl
  | cons t ts ih =>
    simp only [copySlots, Frame.copySlot_congr h (hts t List.mem_cons_self)]
    congr 1
    funext u
    exact ih (fun t ht => hts t (List.mem_cons_of_mem _ ht)) u

/-- **Two frames look alike** to a run that uses these slots. -/
structure Frame.Alike (uses : List SlotUse) (F G : Frame) : Prop where
  layout : F.layout = G.layout
  reads : ∀ i : Nat, .read i ∈ uses → F.slots[i]? = G.slots[i]?

/-- **What two runs leave of two frames** when they use these slots: slots that are not written stay
in both, and every slot stays in both or ends alike in both. -/
structure Frame.Together (uses : List SlotUse) (F G F' G' : Frame) : Prop where
  layouts : F'.layout = F.layout ∧ G'.layout = G.layout
  kept : ∀ i : Nat, .write i ∉ uses → F'.slots[i]? = F.slots[i]? ∧ G'.slots[i]? = G.slots[i]?
  moved : ∀ i : Nat, (F'.slots[i]? = F.slots[i]? ∧ G'.slots[i]? = G.slots[i]?) ∨
    F'.slots[i]? = G'.slots[i]?

namespace Frame

variable {uses : List SlotUse} {F G F' G' F'' G'' : Frame}

theorem Together.refl (uses : List SlotUse) (F G : Frame) : Together uses F G F G :=
  ⟨⟨rfl, rfl⟩, fun _ _ => ⟨rfl, rfl⟩, fun _ => .inl ⟨rfl, rfl⟩⟩

theorem Together.trans (h : Together uses F G F' G') (k : Together uses F' G' F'' G'') :
    Together uses F G F'' G'' := by
  refine ⟨⟨k.layouts.1.trans h.layouts.1, k.layouts.2.trans h.layouts.2⟩, fun i hi => ?_,
    fun i => ?_⟩
  · exact ⟨(k.kept i hi).1.trans (h.kept i hi).1, (k.kept i hi).2.trans (h.kept i hi).2⟩
  · obtain ⟨hF, hG⟩ | same := k.moved i
    · rw [hF, hG]
      exact h.moved i
    · exact .inr same

/-- Where no slot is used, nothing changes. -/
theorem Together.eq_of_nil (h : Together [] F G F' G') : F' = F := by
  have slots : F'.slots = F.slots := Array.ext_getElem? fun i => (h.kept i List.not_mem_nil).1
  cases F
  cases F'
  cases slots
  rfl

/-- What two runs leave looks alike again. -/
theorem Alike.after (h : Alike uses F G) (k : Together uses F G F' G') : Alike uses F' G' := by
  refine ⟨k.layouts.1.trans (h.layout.trans k.layouts.2.symm), fun i hi => ?_⟩
  obtain ⟨hF, hG⟩ | same := k.moved i
  · rw [hF, hG]
    exact h.reads i hi
  · exact same

/-- The same cell in one slot of both frames. -/
theorem slot_setCell_congr (h : F.layout = G.layout) (i : Nat) (cell : Cell) :
    (F.setCell i cell).slots[i]? = (G.setCell i cell).slots[i]? := by
  obtain ⟨hF, hG⟩ | ⟨s, t, hF, hG, hd⟩ := slots_of_layout h i
  · simp [setCell, Array.getElem?_modify, hF, hG]
  · rw [slot_setCell_self cell hF, slot_setCell_self cell hG, hd]

theorem Together.setCell (h : F.layout = G.layout) {i : Nat} (hi : .write i ∈ uses) (cell : Cell) :
    Together uses F G (F.setCell i cell) (G.setCell i cell) := by
  refine ⟨⟨layout_setCell .., layout_setCell ..⟩, fun j hj => ?_, fun j => ?_⟩
  · have hne : i ≠ j := fun heq => hj (heq ▸ hi)
    exact ⟨slot_setCell_ne cell hne, slot_setCell_ne cell hne⟩
  · by_cases hij : i = j
    · subst hij
      exact .inr (slot_setCell_congr h i cell)
    · exact .inl ⟨slot_setCell_ne cell hij, slot_setCell_ne cell hij⟩

/-- A frame that is asked for a slot in a category looks at the declaration of the slot. -/
theorem slotIn_declared (h : F.layout = G.layout) (i : Nat) (c : Category) :
    (∃ e, F.slotIn i c = .error e ∧ G.slotIn i c = .error e) ∨
    (∃ s t, F.slotIn i c = .ok s ∧ G.slotIn i c = .ok t ∧ s.toDeclaration = t.toDeclaration) := by
  obtain ⟨hF, hG⟩ | ⟨s, t, hF, hG, hd⟩ := slots_of_layout h i
  · refine .inl ⟨.slotOutside i F.size, ?_, ?_⟩
    · simp only [slotIn, slot, hF]
      rfl
    · simp only [slotIn, slot, hG, size_eq_of_layout h]
      rfl
  · by_cases hc : s.ty.category = c
    · exact .inr ⟨s, t, slotIn_of_slot hF hc, slotIn_of_slot hG (hd ▸ hc), hd⟩
    · refine .inl ⟨.slotCategory c s.name s.ty, ?_, ?_⟩
      · rw [slotIn, slot_eq_ok.mpr hF]
        exact if_neg hc
      · rw [slotIn, slot_eq_ok.mpr hG, hd]
        exact if_neg (hd ▸ hc)

/-- **A write looks at the declaration of its slot alone**: it is refused in both frames, or changes
the same cell in both. -/
theorem writeAs_declared (h : F.layout = G.layout) (i : Nat) {family : Family}
    (x : Carrier family) :
    (∃ e, F.writeAs i family x = .error e ∧ G.writeAs i family x = .error e) ∨
    (∃ c, F.writeAs i family x = .ok (F.setCell i c) ∧
      G.writeAs i family x = .ok (G.setCell i c)) := by
  simp only [writeAs_eq]
  obtain ⟨e, hF, hG⟩ | ⟨s, t, hF, hG, hd⟩ := slotIn_declared h i family.category
  · exact .inl ⟨.defect e, by rw [hF]; rfl, by rw [hG]; rfl⟩
  · rw [hF, hG]
    simp only [lift_defect_ok, ok_bind, hd]
    cases cellFor t.toDeclaration family x with
    | error e => exact .inl ⟨e, rfl, rfl⟩
    | ok c => exact .inr ⟨c, rfl, rfl⟩

end Frame

/-! ## Local runs -/

/-- **A run is local to slots**: from frames that look alike it ends alike, and moves the frames
together. -/
def Run.Local {α : Type} (uses : List SlotUse) (m : Run Activation α) : Prop :=
  ∀ (F G : Frame) (s : Store), F.Alike uses G → ∃ r F' G' t,
    m ⟨F, s⟩ = (r, ⟨F', t⟩) ∧ m ⟨G, s⟩ = (r, ⟨G', t⟩) ∧ Frame.Together uses F G F' G'

namespace Run

variable {α β : Type} {uses : List SlotUse} {m : Run Activation α}

/-- A run that is local to some slots is local to more. -/
theorem Local.mono {more : List SlotUse} (h : m.Local uses) (hmore : uses ⊆ more) :
    m.Local more := by
  intro F G s alike
  obtain ⟨r, F', G', t, hF, hG, together⟩ :=
    h F G s ⟨alike.layout, fun i hi => alike.reads i (hmore hi)⟩
  exact ⟨r, F', G', t, hF, hG, together.layouts,
    fun i hi => together.kept i fun hmem => hi (hmore hmem), together.moved⟩

theorem Local.bind {f : α → Run Activation β} (h : m.Local uses) (k : ∀ x, (f x).Local uses) :
    (m >>= f).Local uses := by
  intro F G s alike
  obtain ⟨r, F', G', t, hF, hG, first⟩ := h F G s alike
  cases r with
  | error e => exact ⟨_, F', G', t, bind_halt hF, bind_halt hG, first⟩
  | ok x =>
    obtain ⟨r, F'', G'', u, hF', hG', second⟩ := k x F' G' t (alike.after first)
    exact ⟨r, F'', G'', u, (bind_ok hF).trans hF', (bind_ok hG).trans hG', first.trans second⟩

/-- A run that leaves the frame alone and sees only the store. -/
theorem Local.of_store (h : ∀ s, ∃ r t, ∀ F, m ⟨F, s⟩ = (r, ⟨F, t⟩)) : m.Local uses := by
  intro F G s _
  obtain ⟨r, t, hrun⟩ := h s
  exact ⟨r, F, G, t, hrun F, hrun G, .refl uses F G⟩

theorem Local.pure (x : α) : (Pure.pure x : Run Activation α).Local uses :=
  .of_store fun s => ⟨.ok x, s, fun _ => rfl⟩

theorem Local.check (x : Except Fault α) : (Run.check x : Run Activation α).Local uses :=
  .of_store fun s => ⟨(Run.check x s).1, s, fun _ => by cases x <;> rfl⟩

theorem Local.fault (f : Fault) : (Run.fault f : Run Activation α).Local uses :=
  .of_store fun s => ⟨_, s, fun _ => rfl⟩

theorem Local.onStore (m : Run Store α) : (Activation.onStore m).Local uses :=
  .of_store fun s => ⟨(m s).1, (m s).2, fun _ => rfl⟩

/-- What the frame says, where both frames say the same. -/
theorem Local.readFrame {f : Frame → Except Fault α}
    (h : ∀ F G : Frame, F.Alike uses G → f F = f G) : (Activation.readFrame f).Local uses := by
  intro F G s alike
  refine ⟨(Run.check (f F) s).1, F, G, s, ?_, ?_, .refl uses F G⟩
  · cases hf : f F <;> simp [Activation.readFrame, Run.read, Run.check, hf]
  · cases hf : f G <;> simp [Activation.readFrame, Run.read, Run.check, hf, h F G alike]

/-- **After a write to a slot, the rest may read it**: both frames hold the same there. -/
theorem Local.bind_write {slot : Nat} (hslot : .write slot ∈ uses) (family : Family)
    (x : Carrier family) {k : Unit → Run Activation β}
    (rest : ∀ u, (k u).Local (.read slot :: uses)) :
    (Activation.updateFrame (·.writeAs slot family x) >>= k).Local uses := by
  intro F G s alike
  obtain ⟨e, hF, hG⟩ | ⟨c, hF, hG⟩ := Frame.writeAs_declared alike.layout slot x
  · refine ⟨.error (.fault e []), F, G, s, bind_halt ?_, bind_halt ?_, .refl uses F G⟩
    · simp [Activation.updateFrame, Run.focus, Run.update, hF]
    · simp [Activation.updateFrame, Run.focus, Run.update, hG]
  · have written := Frame.Together.setCell alike.layout hslot c
    have after : (F.setCell slot c).Alike (.read slot :: uses) (G.setCell slot c) := by
      refine ⟨(alike.after written).layout, fun i hi => ?_⟩
      obtain heq | hi := List.mem_cons.mp hi
      · cases heq
        exact Frame.slot_setCell_congr alike.layout slot c
      · exact (alike.after written).reads i hi
    obtain ⟨r, F', G', t, hF', hG', further⟩ := rest () _ _ s after
    have further : Frame.Together uses (F.setCell slot c) (G.setCell slot c) F' G' :=
      ⟨further.layouts, fun i hi => further.kept i (by simpa using hi), further.moved⟩
    refine ⟨r, F', G', t, (bind_ok ?_).trans hF', (bind_ok ?_).trans hG', written.trans further⟩
    · simp [Activation.updateFrame, Run.focus, Run.update, hF]
    · simp [Activation.updateFrame, Run.focus, Run.update, hG]

end Run

variable {uses : List SlotUse} {slot closureSlot : Nat}

theorem writeAs_local (hslot : .write slot ∈ uses) (family : Family) (x : Carrier family) :
    (Activation.updateFrame (·.writeAs slot family x)).Local uses := by
  have whole := Run.Local.bind_write hslot family x (k := Pure.pure) fun u => .pure u
  rwa [bind_pure] at whole

theorem callChecked_local (call : Caller) (f : Function) (args : List Value) (result : Ty) :
    (callChecked call f args result).Local uses :=
  .bind (.onStore _) fun v => by
    split
    · exact .pure v
    · exact .fault _

/-- A definition reads the slots that it captures. -/
theorem instantiate_local (target : Target) {capture : Capture} (h : capture.uses ⊆ uses) :
    (instantiate target capture).Local uses := by
  intro F G s alike
  have same : capture.snapshot F = capture.snapshot G := by
    refine copySlots_congr alike.layout (fun t ht => alike.reads t.source (h ?_)) _
    exact List.mem_map.mpr ⟨t, ht, rfl⟩
  have taken : capture.take F s = capture.take G s := by
    simp only [Capture.take, same]
  rcases hr : capture.take F s with ⟨r, t⟩
  rw [hr] at taken
  refine ⟨r.map fun closure => ⟨target, closure.map .shared⟩, F, G, t, ?_, ?_, .refl uses F G⟩
  · cases r <;> simp only [instantiate, hr] <;> rfl
  · cases r <;> simp only [instantiate, ← taken] <;> rfl

theorem ensureClosure_local (hread : .read slot ∈ uses) (hwrite : .write slot ∈ uses)
    (f : Function) : (ensureClosure slot f).Local uses := by
  refine .bind (.of_store fun s => ⟨(Run.check (f.closureIn s) s).1, s, fun _ => ?_⟩)
    fun closure => ?_
  · cases hc : f.closureIn s <;> simp only [Run.read, hc] <;> rfl
  cases closure with
  | some closure => exact .pure _
  | none =>
    simp only
    split
    · refine .bind (.readFrame fun F G alike => ?_) fun _ => .fault _
      rw [Frame.slot_congr alike.layout (alike.reads slot hread)]
    · refine .bind (.onStore _) fun id => .bind ?_ fun _ => .pure _
      exact writeAs_local hwrite .function _

/-- The knot of a recursive binding reads and writes the slot that was bound. -/
theorem tieKnot_local (hread : .read slot ∈ uses) (hwrite : .write slot ∈ uses)
    (closureSlot : Nat) : (tieKnot slot closureSlot).Local uses := by
  refine .bind (.readFrame fun F G alike => ?_) fun f =>
    .bind (ensureClosure_local hread hwrite f) fun r => .onStore _
  exact Frame.readAs_congr alike.layout (alike.reads slot hread) .function

/-! ## Evaluation -/

section

variable {call : Caller}

mutual

/-- **The evaluation of a node is local to the slots that it uses.** -/
theorem Node.eval_local : {family : Family} → (n : Node family) → n.uses ⊆ uses →
    (n.eval call).Local uses
  | _, .bool b, _ => .pure b
  | _, .int n, _ => .pure n
  | _, .float x, _ => .pure x
  | _, .function f, _ => .pure f
  | _, .constant v, _ => .pure v
  | family, .read slot _, h => .readFrame fun _ _ alike =>
    Frame.readAs_congr alike.layout (alike.reads slot (h List.mem_cons_self)) family
  | _, .not a, h => .bind (Node.eval_local a h) fun _ => .pure _
  | _, .negateInt a, h => .bind (Node.eval_local a h) fun _ => .check _
  | _, .negateFloat a, h => .bind (Node.eval_local a h) fun _ => .pure _
  | _, .logic op a b, h => by
    obtain ⟨ha, hb⟩ := List.append_subset.mp h
    refine .bind (Node.eval_local a ha) fun x => ?_
    cases op.decided? x with
    | some r => exact .pure r
    | none => exact .bind (Node.eval_local b hb) fun _ => .pure _
  | _, .compareInt _ a b, h =>
    have ⟨ha, hb⟩ := List.append_subset.mp h
    .bind (Node.eval_local a ha) fun _ => .bind (Node.eval_local b hb) fun _ => .pure _
  | _, .compareFloat _ a b, h =>
    have ⟨ha, hb⟩ := List.append_subset.mp h
    .bind (Node.eval_local a ha) fun _ => .bind (Node.eval_local b hb) fun _ => .pure _
  | _, .arithInt _ a b, h =>
    have ⟨ha, hb⟩ := List.append_subset.mp h
    .bind (Node.eval_local a ha) fun _ => .bind (Node.eval_local b hb) fun _ => .check _
  | _, .arithFloat _ a b, h =>
    have ⟨ha, hb⟩ := List.append_subset.mp h
    .bind (Node.eval_local a ha) fun _ => .bind (Node.eval_local b hb) fun _ => .pure _
  | _, .cond test a b, h => by
    obtain ⟨htest, hbranches⟩ := List.append_subset.mp h
    obtain ⟨ha, hb⟩ := List.append_subset.mp hbranches
    refine .bind (Node.eval_local test htest) fun x => ?_
    cases x with
    | false => exact Node.eval_local b hb
    | true => exact Node.eval_local a ha
  | _, .block bs body, h =>
    have ⟨hbs, hbody⟩ := List.append_subset.mp h
    .bind (Bindings.execute_local bs hbs) fun _ => Node.eval_local body hbody
  | _, .call callee args _, h =>
    have ⟨hcallee, hargs⟩ := List.append_subset.mp h
    .bind (Node.eval_local callee hcallee) fun _ => .bind (Nodes.eval_local args hargs) fun _ =>
      .bind (callChecked_local _ _ _ _) fun _ => .check _
  | _, .index seq i _, h =>
    have ⟨hseq, hi⟩ := List.append_subset.mp h
    .bind (Node.eval_local seq hseq) fun _ => .bind (.check _) fun _ =>
      .bind (Node.eval_local i hi) fun _ => .check _
  | _, .slice seq slicer, h =>
    have ⟨hseq, hslicer⟩ := List.append_subset.mp h
    .bind (Node.eval_local seq hseq) fun _ => .bind (.check _) fun _ =>
      .bind (Node.eval_local slicer hslicer) fun _ => .bind (.check _) fun _ =>
        .bind (.check _) fun _ => .bind (.check _) fun _ => .pure _
  | _, .array _ items, h =>
    .bind (Nodes.fill_local items h _) fun _ => .bind (.onStore _) fun _ => .pure _
  | _, .intRange first last step, h =>
    have ⟨hfirst, hrest⟩ := List.append_subset.mp h
    have ⟨hlast, hstep⟩ := List.append_subset.mp hrest
    .bind (Part.eval_local first hfirst) fun _ => .bind (Part.eval_local last hlast) fun _ =>
      .bind (Part.eval_local step hstep) fun _ => .bind (.check _) fun _ => .pure _
  | _, .floatRange first last step, h =>
    have ⟨hfirst, hrest⟩ := List.append_subset.mp h
    have ⟨hlast, hstep⟩ := List.append_subset.mp hrest
    .bind (Part.eval_local first hfirst) fun _ => .bind (Part.eval_local last hlast) fun _ =>
      .bind (Part.eval_local step hstep) fun _ => .bind (.check _) fun _ => .pure _
  | _, .define target _, h => instantiate_local target h

theorem Nodes.eval_local : (ns : Nodes) → ns.uses ⊆ uses → (ns.eval call).Local uses
  | .nil, _ => .pure _
  | .cons _ n ns, h =>
    have ⟨hn, hns⟩ := List.append_subset.mp h
    .bind (Node.eval_local n hn) fun _ => .bind (Nodes.eval_local ns hns) fun _ => .pure _

theorem Nodes.fill_local : (ns : Nodes) → ns.uses ⊆ uses → (b : Builder) →
    (ns.fill call b).Local uses
  | .nil, _, _ => .pure _
  | .cons _ n ns, h, _ =>
    have ⟨hn, hns⟩ := List.append_subset.mp h
    .bind (Node.eval_local n hn) fun _ => .bind (.check _) fun b => Nodes.fill_local ns hns b

theorem Part.eval_local : {family : Family} → (p : Part family) → p.uses ⊆ uses →
    (p.eval call).Local uses
  | _, .none, _ => .pure _
  | _, .some n, h => .bind (Node.eval_local n h) fun _ => .pure _

theorem Bindings.execute_local : (bs : Bindings) → bs.uses ⊆ uses →
    (bs.execute call).Local uses
  | .nil, _ => .pure _
  | .bind _ _ n rest, h =>
    have ⟨hslot, hparts⟩ := List.cons_subset.mp h
    have ⟨hn, hrest⟩ := List.append_subset.mp hparts
    .bind (Node.eval_local n hn) fun x => .bind (writeAs_local hslot _ x) fun _ =>
      Bindings.execute_local rest hrest
  | .bindRec slot n closureSlot rest, h => by
    obtain ⟨hslot, hparts⟩ := List.cons_subset.mp h
    obtain ⟨hn, hrest⟩ := List.append_subset.mp hparts
    refine .bind (Node.eval_local n hn) fun f => ?_
    refine .bind_write hslot .function f fun _ => ?_
    refine .bind (tieKnot_local List.mem_cons_self (List.mem_cons_of_mem _ hslot) _) fun _ => ?_
    exact (Bindings.execute_local rest hrest).mono (List.subset_cons_self _ _)

end

end

/-! ## Calls and failed bindings -/

/-- Evaluates the operands of a call and stops before the call. -/
def Node.operands (call : Caller) (callee : Node .function) (args : Nodes) :
    Run Activation (Function × List Value) := do
  let f ← callee.eval call
  let values ← args.eval call
  return (f, values)

/-- **A call leaves the frame of its caller as its operands left it.** -/
theorem Node.frame_eval_call (call : Caller) {family : Family} (callee : Node .function)
    (args : Nodes) (result : Ty) (a : Activation) :
    ((Node.call callee args result : Node family).eval call a).2.frame
      = (Node.operands call callee args a).2.frame := by
  have split : (Node.call callee args result : Node family).eval call =
      Node.operands call callee args >>= fun ops =>
        callChecked call ops.1 ops.2 result >>= fun v => Run.check (family.unbox v) := by
    simp only [Node.eval, Node.operands, bind_assoc, pure_bind]
  rw [split]
  rcases hops : Node.operands call callee args a with ⟨r, b⟩
  cases r with
  | error e => rw [Run.bind_halt hops]
  | ok ops =>
    rw [Run.bind_ok hops]
    -- The rest is local to no slots at all, so it leaves the frame as it is.
    have rest : Run.Local [] (callChecked call ops.1 ops.2 result >>= fun v =>
        Run.check (family.unbox v)) := .bind (callChecked_local call _ _ _) fun _ => .check _
    obtain ⟨r, F', G', t, hrun, -, together⟩ := rest b.frame b.frame b.store ⟨rfl, nofun⟩
    have same : F' = b.frame := together.eq_of_nil
    exact (congrArg (fun x => x.2.frame) hrun).trans same

/-- **What a node does to its frame is local to the slots that it uses.** In two frames of one layout
that agree on the slots that the node reads, it ends alike, in its value or halt and in the store.
Slots that it does not write stay as they were in both; one that it writes stays in both, or ends
with the same contents in both. A call does nothing to its caller's frame that its operands have not
done, and a binding whose value halts ends there, with the slot not written. -/
theorem Code.eval_locality (code : Code) (depth : Nat) (n : AnyNode) (s : Store) (F G : Frame)
    (layout : F.layout = G.layout)
    (agree : ∀ i : Nat, .read i ∈ n.uses → F.slots[i]? = G.slots[i]?) :
    let inF := code.eval depth n ⟨F, s⟩
    let inG := code.eval depth n ⟨G, s⟩
    inF.1 = inG.1 ∧ inF.2.store = inG.2.store ∧
    (∀ i : Nat, .write i ∉ n.uses →
      inF.2.frame.slots[i]? = F.slots[i]? ∧ inG.2.frame.slots[i]? = G.slots[i]?) ∧
    (∀ i : Nat, .write i ∈ n.uses →
      (inF.2.frame.slots[i]? = F.slots[i]? ∧ inG.2.frame.slots[i]? = G.slots[i]?) ∨
        inF.2.frame.slots[i]? = inG.2.frame.slots[i]?) ∧
    (∀ (family : Family) (callee : Node .function) (args : Nodes) (result : Ty) (a : Activation),
      ((Node.call callee args result : Node family).eval (code.call depth) a).2.frame
        = (Node.operands (code.call depth) callee args a).2.frame) ∧
    (∀ (family : Family) (slot : Nat) (value : Node family) (rest : Bindings)
      (a b : Activation) (h : Halt), value.eval (code.call depth) a = (.error h, b) →
        (Bindings.bind family slot value rest).execute (code.call depth) a = (.error h, b)) ∧
    (∀ (slot : Nat) (value : Node .function) (closureSlot : Nat) (rest : Bindings)
      (a b : Activation) (h : Halt), value.eval (code.call depth) a = (.error h, b) →
        (Bindings.bindRec slot value closureSlot rest).execute (code.call depth) a
          = (.error h, b)) := by
  have whole : (code.eval depth n).Local n.uses :=
    .bind (Node.eval_local n.node (List.Subset.refl _)) fun _ => .pure _
  obtain ⟨r, F', G', t, hF, hG, together⟩ := whole F G s ⟨layout, agree⟩
  simp only [hF, hG]
  refine ⟨trivial, trivial, together.kept, fun i _ => together.moved i, ?_, ?_, ?_⟩
  · exact fun family callee args result a => Node.frame_eval_call _ callee args result a
  · exact fun _ _ _ _ _ _ _ halted => Run.bind_halt halted
  · exact fun _ _ _ _ _ _ _ halted => Run.bind_halt halted

namespace Countdown

/-- Binds the countdown in slot 0 and starts it at what slot 1 holds. -/
def fromSlot : AnyNode :=
  ⟨.int,
    .block (.bindRec 0 (.define target ⟨closure, []⟩) 0 .nil)
      (.call (.read 0 signature.ty) (.cons .int (.read 1 .int) .nil) .int)⟩

/-- A frame with a start for the countdown, and a slot that it has nothing to do with. -/
def startAt (n : Int64) (other : Cell) : Frame :=
  ⟨#[⟨⟨"f", signature.ty⟩, .undefined⟩, ⟨⟨"n", .int⟩, .int n⟩, ⟨⟨"z", .int⟩, other⟩]⟩

end Countdown

/-- The countdown runs alike beside a slot with a number and beside the same slot undefined, and
leaves both as they are. -/
theorem countdown_local :
    let inF := Countdown.code.eval 9 Countdown.fromSlot ⟨Countdown.startAt 2 (.int 7), .empty⟩
    let inG := Countdown.code.eval 9 Countdown.fromSlot ⟨Countdown.startAt 2 .undefined, .empty⟩
    .write 0 ∈ Countdown.fromSlot.uses ∧ .write 2 ∉ Countdown.fromSlot.uses ∧
    inF.1 = inG.1 ∧ inF.2.store = inG.2.store ∧
    inF.2.frame.slots[2]? = some ⟨⟨"z", .int⟩, .int 7⟩ ∧
    inG.2.frame.slots[2]? = some ⟨⟨"z", .int⟩, .undefined⟩ := by
  have unwritten : SlotUse.write 2 ∉ Countdown.fromSlot.uses := by decide
  have agree (i : Nat) (hi : .read i ∈ Countdown.fromSlot.uses) :
      (Countdown.startAt 2 (.int 7)).slots[i]? = (Countdown.startAt 2 .undefined).slots[i]? := by
    have hi : i = 0 ∨ i = 1 := by
      simpa [Countdown.fromSlot, AnyNode.uses, Node.uses, Nodes.uses, Bindings.uses,
        Capture.uses] using hi
    obtain rfl | rfl := hi <;> rfl
  obtain ⟨value, store, kept, -⟩ := Code.eval_locality Countdown.code 9 Countdown.fromSlot .empty
    (Countdown.startAt 2 (.int 7)) (Countdown.startAt 2 .undefined)
    (by simp [Frame.layout, Countdown.startAt]) agree
  exact ⟨by decide, unwritten, value, store, (kept 2 unwritten).1, (kept 2 unwritten).2⟩

end TypedEval
