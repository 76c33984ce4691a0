import TypedEval.Proofs.Node.Accepted
import TypedEval.Proofs.Typing.Builtins

/-!
# Evaluation keeps types

Over a typed way of calling, an accepted node evaluates to a value that fits the node's type, in an
activation that stays typed. The induction follows the tree; the invariant between two parts of a
node is the discipline `Discipline.typed`, and what the first part gave stays well typed while the
second one adds closures (the `mono` lemmas).
-/

namespace TypedEval

section

variable {code : Code} {base : List Layout} {layout : Layout} {a : Activation} {c : Caller}

/-- A check that gives what it should leaves the activation alone. -/
theorem Run.Obeys.of_gives {α : Type} {x : Except Fault α} {p : α → Activation → Prop}
    (ha : (Discipline.typed code base layout).holds a) (h : Gives x fun v => p v a) :
    (Run.check x).Obeys (.typed code base layout) a p := by
  cases x with
  | ok v => exact .pure ha h
  | error f => exact .fault ha h

/-- What the activation says leaves it alone. -/
theorem Run.Obeys.read_gives {α : Type} {f : Activation → Except Fault α}
    {p : α → Activation → Prop} (ha : (Discipline.typed code base layout).holds a)
    (h : Gives (f a) fun v => p v a) : (Run.read f).Obeys (.typed code base layout) a p := by
  refine .read ha (fun x hx => ?_) (fun e he => ?_)
  · rw [hx] at h; exact h
  · rw [he] at h; exact h

/-- A raised cause leaves the activation alone. -/
theorem Run.Obeys.of_cause {α : Type} {x : Except Cause α} {p : α → Activation → Prop}
    (ha : (Discipline.typed code base layout).holds a) (h : ∀ v, p v a) :
    (Run.check (liftM x)).Obeys (.typed code base layout) a p :=
  .of_gives ha (gives_of_cause fun v _ => h v)

theorem callChecked_typed (hcall : c.Typed code base) {f : Function} {args : List Value}
    {params : List Ty} {result : Ty} (ha : (Discipline.typed code base layout).holds a)
    (hf : f.Typed code a.store.layouts none) (hsignature : f.target.signature = ⟨params, result⟩)
    (hargs : FitsAll code a.store.layouts args params) :
    (callChecked c f args result).Obeys (.typed code base layout) a
      fun v b => v.Fits code b.store.layouts result := by
  have called := hcall f args a.store ⟨ha.1.store, ha.2⟩ hf (by rw [hsignature]; exact hargs)
  rw [hsignature] at called
  refine .bind (.onStore ha called) fun v b hb _ hv => ?_
  have hfamily : v.family = result.family := by rw [← Value.family_ty, hv.ty]
  rw [if_pos hfamily]
  exact .pure hb hv

/-- The slot of a binding takes what its node handed over. -/
theorem writeAs_typed (ha : (Discipline.typed code base layout).holds a) {slot : Nat} {ty : Ty}
    (hd : layout.Declares slot ty) {family : Family} (hfamily : ty.family = family)
    {x : Carrier family} (hx : (family.box x).Fits code a.store.layouts ty) :
    (Activation.updateFrame (·.writeAs slot family x)).Obeys (.typed code base layout) a
      fun _ _ => True := by
  obtain ⟨⟨rfl, hframe, hstore⟩, hbase⟩ := ha
  obtain ⟨g, hg, hlayout, htyped⟩ := hframe.writeAs hd hx hfamily
  exact .of_updateFrame hg ⟨⟨hlayout, htyped, hstore⟩, hbase⟩ List.prefix_rfl trivial

/-- **A recursive binding of a definition keeps the activation typed.** -/
theorem bindDefinition_typed {slot closureSlot : Nat} {target : Target} {capture : Capture}
    (ha : (Discipline.typed code base layout).holds a)
    (hdefine : Build.define layout target capture.transfers = .ok (.define target capture))
    (hdeclared : code.Declares target) {f : Bindings → Bindings}
    (hbind : Build.bindRec layout slot (.define target capture) closureSlot = .ok f) :
    Run.Obeys (.typed code base layout) (do
      let f ← instantiate target capture
      Activation.updateFrame (·.writeFunction slot f)
      tieKnot slot closureSlot) a fun _ _ => True := by
  obtain ⟨hclosure, hts⟩ := Build.define_eq_ok hdefine
  obtain ⟨hslot, hself⟩ := Build.bindRec_define_eq_ok hbind
  refine .bind (instantiate_typed ha hdeclared hclosure hts) ?_
  rintro g b hb - ⟨rfl, hg⟩
  refine .bind (writeFunction_typed hb hslot hg) ?_
  rintro - d hd - ⟨hsame, hread⟩
  exact tieKnot_typed hd hread hslot (by rw [hsame]; exact hg) hclosure hself

/-! ## The tree -/

mutual

/-- **An accepted node evaluates to a value of its type.** -/
theorem Node.eval_typed (hcall : c.Typed code base) : {family : Family} → (n : Node family) →
    n.Accepted code (Function.Typed code base none) layout → n.DefinesRecursion →
    (a : Activation) → (Discipline.typed code base layout).holds a →
    (n.eval c).Obeys (.typed code base layout) a
      fun x b => (family.box x).Fits code b.store.layouts n.ty
  | _, .bool b, _, _, _, ha => .pure ha ⟨rfl, .bool b⟩
  | _, .int n, _, _, _, ha => .pure ha ⟨rfl, .int n⟩
  | _, .float x, _, _, _, ha => .pure ha ⟨rfl, .float x⟩
  | _, .function _, h, _, _, ha => .pure ha ⟨rfl, .function (h.mono ha.2)⟩
  | _, .constant _, h, _, _, ha => .pure ha ⟨rfl, h.2.imp fun _ hf => hf.mono ha.2⟩
  | family, .read slot ty, h, _, a, ha => by
    obtain ⟨hd, hfamily⟩ := Build.read_eq_ok h
    have read := ha.1.frame.readAs (by rw [ha.1.layout]; exact hd) hfamily
    rw [Node.ty_eq_referenceTy _ h]
    exact .read_gives ha read
  | _, .not n, h, hr, a, ha =>
    .bind (Node.eval_typed hcall n h hr a ha) fun x _ hb _ _ => .pure hb ⟨rfl, .bool (!x)⟩
  | _, .negateInt n, h, hr, a, ha =>
    .bind (Node.eval_typed hcall n h hr a ha) fun _ _ hb _ _ => .of_cause hb fun m => ⟨rfl, .int m⟩
  | _, .negateFloat n, h, hr, a, ha =>
    .bind (Node.eval_typed hcall n h hr a ha) fun x _ hb _ _ => .pure hb ⟨rfl, .float (-x)⟩
  | _, .logic op m n, h, hr, a, ha =>
    .bind (Node.eval_typed hcall m h.1 hr.1 a ha) fun x b hb _ _ => by
      cases op.decided? x with
      | some r => exact .pure hb ⟨rfl, .bool r⟩
      | none =>
        exact .bind (Node.eval_typed hcall n h.2 hr.2 b hb) fun y _ hd _ _ =>
          .pure hd ⟨rfl, .bool (op.apply x y)⟩
  | _, .compareInt op m n, h, hr, a, ha =>
    .bind (Node.eval_typed hcall m h.1 hr.1 a ha) fun x b hb _ _ =>
      .bind (Node.eval_typed hcall n h.2 hr.2 b hb) fun y _ hd _ _ =>
        .pure hd ⟨rfl, .bool (op.applyInt x y)⟩
  | _, .compareFloat op m n, h, hr, a, ha =>
    .bind (Node.eval_typed hcall m h.1 hr.1 a ha) fun x b hb _ _ =>
      .bind (Node.eval_typed hcall n h.2 hr.2 b hb) fun y _ hd _ _ =>
        .pure hd ⟨rfl, .bool (op.applyFloat x y)⟩
  | _, .arithInt _ m n, h, hr, a, ha =>
    .bind (Node.eval_typed hcall m h.1 hr.1 a ha) fun _ b hb _ _ =>
      .bind (Node.eval_typed hcall n h.2 hr.2 b hb) fun _ _ hd _ _ =>
        .of_cause hd fun k => ⟨rfl, .int k⟩
  | _, .arithFloat op m n, h, hr, a, ha =>
    .bind (Node.eval_typed hcall m h.1 hr.1 a ha) fun x b hb _ _ =>
      .bind (Node.eval_typed hcall n h.2 hr.2 b hb) fun y _ hd _ _ =>
        .pure hd ⟨rfl, .float (op.apply x y)⟩
  | _, .cond test m n, h, hr, a, ha => by
    obtain ⟨hsame, htest, hm, hn⟩ := h
    rw [Node.ty_cond]
    refine .bind (Node.eval_typed hcall test htest hr.1 a ha) fun x b hb _ _ => ?_
    cases x with
    | true => exact Node.eval_typed hcall m hm hr.2.1 b hb
    | false => rw [Build.cond_eq_ok hsame]; exact Node.eval_typed hcall n hn hr.2.2 b hb
  | _, .block bindings body, h, hr, a, ha => by
    rw [Node.ty_block]
    exact .bind (Bindings.execute_typed hcall bindings h.1 hr.1 a ha) fun _ b hb _ _ =>
      Node.eval_typed hcall body h.2 hr.2 b hb
  | family, .call callee args result, h, hr, a, ha => by
    rw [Node.ty_eq_referenceTy _ h]
    obtain ⟨hbuild, hcallee, hargs⟩ := h
    obtain ⟨hty, hfamily⟩ := Build.call_eq_ok hbuild
    refine .bind (Node.eval_typed hcall callee hcallee hr.1 a ha) fun f b hb _ hf => ?_
    refine .bind (Nodes.eval_typed hcall args hargs hr.2 b hb) fun values d hd grown hvalues => ?_
    rw [hty] at hf
    obtain ⟨g, hg, hsignature, hg'⟩ := hf.function
    cases hg
    refine .bind (callChecked_typed hcall hd (hg'.mono grown) hsignature hvalues)
      fun v e he _ hv => ?_
    obtain ⟨x, hx, hbox⟩ := Value.unbox_of_family (by rw [← Value.family_ty, hv.ty, hfamily])
    exact .of_check (lift_defect_eq_ok.mpr hx) he (by rw [hbox]; exact hv)
  | family, .index seq i element, h, hr, a, ha => by
    rw [Node.ty_eq_referenceTy _ h]
    obtain ⟨hbuild, hseq, hi⟩ := h
    obtain ⟨hty, hfamily⟩ := Build.index_eq_ok hbuild
    refine .bind (Node.eval_typed hcall seq hseq hr.1 a ha) fun v b hb _ hv => ?_
    rw [hty] at hv
    obtain ⟨w, hw, -, hstorage⟩ := hv.view
    refine .bind_check (lift_defect_eq_ok.mpr hw) ?_
    refine .bind (Node.eval_typed hcall i hi hr.2 b hb) fun k e he grown _ => ?_
    exact .of_gives he (ViewOf.getAs_typed (hstorage.mono grown) hfamily k)
  | _, .slice seq slicer, h, hr, a, ha => by
    obtain ⟨hbuild, hseq, hslicer⟩ := h
    obtain ⟨⟨element, hty⟩, hrange⟩ := Build.slice_eq_ok hbuild
    rw [show (Node.slice seq slicer).ty = seq.ty from rfl, hty]
    refine .bind (Node.eval_typed hcall seq hseq hr.1 a ha) fun v b hb _ hv => ?_
    rw [hty] at hv
    obtain ⟨w, hw, rfl, hstorage⟩ := hv.view
    refine .bind_check (lift_defect_eq_ok.mpr hw) ?_
    refine .bind (Node.eval_typed hcall slicer hslicer hr.2 b hb) fun u e he grown hu => ?_
    rw [hrange] at hu
    obtain ⟨r, rfl, hint⟩ := Value.eq_range_of_ty hu.ty
    cases r with
    | float r => cases hint
    | int r =>
      refine .bind_check (a := Range.int r) rfl ?_
      refine .bind_check (a := r) rfl ?_
      refine .bind (p := fun z d => z.array = w.array ∧ d = e)
        (.of_gives he ((w.slice_gives r).imp fun z hz => ⟨hz, rfl⟩)) ?_
      rintro z d hd - ⟨harray, rfl⟩
      have htyped : z.array.storage.Typed code d.store.layouts z.array.element := by
        rw [harray]
        exact hstorage.mono grown
      rw [← harray]
      exact .pure hd htyped.slice
  | _, .array element items, h, hr, a, ha => by
    obtain ⟨hbuild, hitems⟩ := h
    refine .bind (Nodes.fill_typed hcall items hitems hr (Build.array_eq_ok hbuild) (.new element)
      a ha .new) fun d b hb _ hd => ?_
    refine .bind (.onStore hb (newStorage_typed ⟨hb.1.store, hb.2⟩)) fun id e he grown _ => ?_
    exact .pure he ((hd.mono grown).finish id)
  | _, .intRange first last step, h, hr, a, ha =>
    .bind (Part.eval_typed hcall first h.1 hr.1 a ha) fun _ b hb _ _ =>
      .bind (Part.eval_typed hcall last h.2.1 hr.2.1 b hb) fun _ d hd _ _ =>
        .bind (Part.eval_typed hcall step h.2.2 hr.2.2 d hd) fun _ _ he _ _ =>
          .bind (p := fun _ _ => True) (.of_cause he fun _ => trivial) fun r _ hg _ _ =>
            .pure hg ⟨rfl, .range (.int r)⟩
  | _, .floatRange first last step, h, hr, a, ha =>
    .bind (Part.eval_typed hcall first h.1 hr.1 a ha) fun _ b hb _ _ =>
      .bind (Part.eval_typed hcall last h.2.1 hr.2.1 b hb) fun _ d hd _ _ =>
        .bind (Part.eval_typed hcall step h.2.2 hr.2.2 d hd) fun _ _ he _ _ =>
          .bind (p := fun _ _ => True) (.of_cause he fun _ => trivial) fun r _ hg _ _ =>
            .pure hg ⟨rfl, .range (.float r)⟩
  | _, .define target capture, h, _, a, ha => by
    obtain ⟨hclosure, hts⟩ := Build.define_eq_ok h.1
    refine (instantiate_typed ha h.2 hclosure hts).imp ?_
    rintro f b ⟨rfl, hf⟩
    exact ⟨rfl, .function hf⟩

theorem Nodes.eval_typed (hcall : c.Typed code base) : (ns : Nodes) →
    ns.Accepted code (Function.Typed code base none) layout → ns.DefinesRecursion →
    (a : Activation) → (Discipline.typed code base layout).holds a →
    (ns.eval c).Obeys (.typed code base layout) a
      fun vs b => FitsAll code b.store.layouts vs ns.types
  | .nil, _, _, _, ha => .pure ha .nil
  | .cons _ n ns, h, hr, a, ha =>
    .bind (Node.eval_typed hcall n h.1 hr.1 a ha) fun _ b hb _ hx =>
      .bind (Nodes.eval_typed hcall ns h.2 hr.2 b hb) fun _ _ hd grown hvs =>
        .pure hd (.cons (hx.mono grown) hvs)

theorem Nodes.fill_typed (hcall : c.Typed code base) : (ns : Nodes) →
    ns.Accepted code (Function.Typed code base none) layout → ns.DefinesRecursion → {element : Ty} →
    (∀ t ∈ ns.types, t = element) → (d : Builder) → (a : Activation) →
    (Discipline.typed code base layout).holds a → d.Typed code a.store.layouts element →
    (ns.fill c d).Obeys (.typed code base layout) a
      fun d b => d.Typed code b.store.layouts element
  | .nil, _, _, _, _, _, _, ha, hd => .pure ha hd
  | .cons family n ns, h, hr, element, hty, d, a, ha, hd => by
    refine .bind (Node.eval_typed hcall n h.1 hr.1 a ha) fun x b hb grown hx => ?_
    have helement : n.ty = element := hty _ List.mem_cons_self
    have hfamily : element.family = family := by rw [← helement]; exact n.family_ty h.1
    rw [helement] at hx
    obtain ⟨e, he, htyped⟩ := (hd.mono grown).pushAs hfamily hx
    refine .bind_check he ?_
    exact Nodes.fill_typed hcall ns h.2 hr.2 (fun t ht => hty t (List.mem_cons_of_mem _ ht)) e b hb
      htyped

theorem Part.eval_typed (hcall : c.Typed code base) : {family : Family} → (p : Part family) →
    p.Accepted code (Function.Typed code base none) layout → p.DefinesRecursion →
    (a : Activation) → (Discipline.typed code base layout).holds a →
    (p.eval c).Obeys (.typed code base layout) a fun _ _ => True
  | _, .none, _, _, _, ha => .pure ha trivial
  | _, .some n, h, hr, a, ha =>
    .bind (Node.eval_typed hcall n h hr a ha) fun _ _ hb _ _ => .pure hb trivial

theorem Bindings.execute_typed (hcall : c.Typed code base) : (bs : Bindings) →
    bs.Accepted code (Function.Typed code base none) layout → bs.DefinesRecursion →
    (a : Activation) → (Discipline.typed code base layout).holds a →
    (bs.execute c).Obeys (.typed code base layout) a fun _ _ => True
  | .nil, _, _, _, ha => .pure ha trivial
  | .bind _ _ n rest, h, hr, a, ha =>
    .bind (Node.eval_typed hcall n h.2.1 hr.1 a ha) fun _ _ hb _ hx =>
      .bind (writeAs_typed hb (Build.bind_node_eq_ok h.1) (n.family_ty h.2.1) hx) fun _ d hd _ _ =>
        Bindings.execute_typed hcall rest h.2.2 hr.2 d hd
  | .bindRec slot n closureSlot rest, h, hr, a, ha => by
    obtain ⟨⟨target, capture, rfl⟩, hrest⟩ := hr
    obtain ⟨hbind, ⟨hdefine, hdeclared⟩, hacc⟩ := h
    have whole := (bindDefinition_typed ha hdefine hdeclared hbind).bind
      fun _ b hb _ _ => Bindings.execute_typed hcall rest hacc hrest b hb
    simp only [bind_assoc] at whole
    exact whole

end

theorem AnyNode.eval_typed (hcall : c.Typed code base) (n : AnyNode)
    (h : n.node.Accepted code (Function.Typed code base none) layout)
    (hr : n.node.DefinesRecursion) (ha : (Discipline.typed code base layout).holds a) :
    (n.eval c).Obeys (.typed code base layout) a fun v b => v.Fits code b.store.layouts n.ty :=
  .bind (Node.eval_typed hcall n.node h hr a ha) fun _ _ hb _ hx => .pure hb hx

end

end TypedEval
