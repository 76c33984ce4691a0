import TypedEval.Proofs.Termination.Places
import TypedEval.Proofs.Termination.Reducible

/-!
# Evaluation ends

Over a frame of reducible values, a node whose items are reducible ends in a reducible value, by
induction over the tree. A call ends because its callee is reducible, and a definition is reducible
because its body ends, in whatever store and with whatever reducible arguments it is called.
-/

namespace TypedEval

/-! ## What may stand in a tree -/

/-- **A target is reducible**: every function of it is, in stores that extend `base`, if its closure is
there and holds reducible values. -/
def Target.Reducible (code : Code) (base : Store) (t : Target) : Prop :=
  ∀ (s : Store) (f : Function), base.Extends s → f.target = t → f.isSelfReference = false →
    (∀ id, f.closureId? = some id →
      ∃ frame, s.closures[id]? = some frame ∧ frame.Of (Function.Reducible code s)) →
    f.Reducible code s

/-- **An item is reducible**: constants and definitions are, and there is no recursive binding. -/
def Item.Reducible (code : Code) (base : Store) : Item → Prop
  | .constant v => v.WellTyped (Function.Reducible code base)
  | .definition target => target.Reducible code base
  | .recursion => False

/-- What an evaluation keeps: a frame of reducible values in a store that extends `base`. -/
def Discipline.reducing (code : Code) (base : Store) (layout : Layout) : Discipline Activation where
  holds a := base.Extends a.store ∧ a.frame.layout = layout ∧
    a.frame.Of (Function.Reducible code a.store)
  leads a b := a.store.Extends b.store
  halts h := h ≠ .exhausted
  refl a := .refl a.store
  trans := Store.Extends.trans

section

variable {code : Code} {base : Store} {layout : Layout} {a : Activation}

/-! ## Operations of an activation -/

/-- A check ends, whatever it finds. -/
theorem Run.Obeys.check_reducing {α : Type} {x : Except Fault α} {p : α → Activation → Prop}
    (ha : (Discipline.reducing code base layout).holds a) (h : ∀ v, x = .ok v → p v a) :
    (Run.check x).Obeys (.reducing code base layout) a p := by
  cases x with
  | ok v => exact .pure ha (h v rfl)
  | error f => exact .fault ha (Halt.fault_ne_exhausted f [])

/-- A run on the store keeps the frame. -/
theorem Run.Ends.onStore {α : Type} {m : Nat → Run Store α} {r : α → Store → Prop}
    (ha : (Discipline.reducing code base layout).holds a)
    (h : Run.Ends .later m a.store r) :
    Run.Ends (.reducing code base layout) (fun depth => Activation.onStore (m depth)) a
      fun x b => r x b.store :=
  h.focus (fun _ _ grown => ⟨⟨ha.1.trans grown, ha.2.1, ha.2.2.mono grown⟩, grown⟩)
    (fun _ _ hr => hr) (fun _ he => he)

theorem newStorage_later {s : Store} :
    Store.newStorage.Obeys .later s fun _ _ => True :=
  ⟨trivial, fun _ _ h => h, trivial⟩

/-- **A call of a reducible function ends.** -/
theorem callChecked_ends (ha : (Discipline.reducing code base layout).holds a) {f : Function}
    {args : List Value} {result : Ty} (hf : f.Reducible code a.store)
    (hargs : List.Forall₂ (Value.Of (Function.Reducible code a.store)) f.target.signature.params
      args)
    (hresult : f.target.signature.result = result) :
    Run.Ends (.reducing code base layout) (fun depth => callChecked (code.call depth) f args result)
      a fun v b => v.Of (Function.Reducible code b.store) result := by
  refine (Run.Ends.onStore ha (hf.ends (.refl _) hargs)).bind fun v b hb _ hv => .of_obeys ?_
  rw [hresult] at hv
  have hfamily : v.family = result.family := by rw [← Value.family_ty, hv.ty]
  rw [if_pos hfamily]
  exact .pure hb hv

/-- The slot of a binding takes what its node handed over. -/
theorem writeAs_reducing (ha : (Discipline.reducing code base layout).holds a) {slot : Nat}
    {family : Family} {x : Carrier family} {ty : Ty}
    (hx : (family.box x).Of (Function.Reducible code a.store) ty) :
    (Activation.updateFrame (·.writeAs slot family x)).Obeys (.reducing code base layout) a
      fun _ _ => True := by
  refine .updateFrame ha (fun g hg => ⟨⟨ha.1, ?_, ?_⟩, .refl _, trivial⟩)
    fun e _ => Halt.fault_ne_exhausted e []
  · rw [(Frame.setCell_of_writeAs hg).1, Frame.layout_setCell]
    exact ha.2.1
  · obtain ⟨rfl, s, hs, hty⟩ := Frame.setCell_of_writeAs hg
    exact ha.2.2.put hx.wellTyped hs hty

/-- **A definition of a reducible target is reducible**, with what it captures. -/
theorem instantiate_reducing (ha : (Discipline.reducing code base layout).holds a)
    {target : Target} (htarget : target.Reducible code base) (capture : Capture) :
    (instantiate target capture).Obeys (.reducing code base layout) a
      fun f b => f.target = target ∧ f.Reducible code b.store := by
  obtain ⟨-, h⟩ | ⟨f, -, h⟩ | ⟨frame, hframe, h⟩ := instantiate_cases target capture a
  · exact .of_ok h ha (.refl _) ⟨rfl, htarget _ _ ha.1 rfl rfl fun _ hid => (nomatch hid)⟩
  · exact .of_halt h ha (.refl _) (Halt.fault_ne_exhausted f [])
  · have grown := a.store.extends_addClosure frame
    have hof := (copySlots_of ha.2.2 (.allocate capture.closure) capture.transfers hframe).2
    refine .of_ok h ⟨ha.1.trans grown, ha.2.1, ha.2.2.mono grown⟩ grown
      ⟨rfl, htarget _ _ (ha.1.trans grown) rfl rfl fun id hid => ?_⟩
    cases hid
    exact ⟨frame, a.store.getElem?_addClosure_self frame, hof.mono grown⟩

/-! ## The tree -/

variable {good : Function → Prop}

mutual

/-- **An accepted node with reducible items ends in a reducible value of its type.** -/
theorem Node.eval_ends : {family : Family} → (n : Node family) → n.Accepted code good layout →
    n.All (Item.Reducible code base) → (a : Activation) →
    (Discipline.reducing code base layout).holds a →
    Run.Ends (.reducing code base layout) (fun depth => n.eval (code.call depth)) a
      fun x b => (family.box x).Of (Function.Reducible code b.store) n.ty
  | _, .bool b, _, _, _, ha => .of_obeys (.pure ha ⟨rfl, .bool b⟩)
  | _, .int n, _, _, _, ha => .of_obeys (.pure ha ⟨rfl, .int n⟩)
  | _, .float x, _, _, _, ha => .of_obeys (.pure ha ⟨rfl, .float x⟩)
  | _, .function f, _, hi, _, ha =>
    .of_obeys (.pure ha ⟨rfl, Value.WellTyped.imp (fun _ hf => hf.mono ha.1) hi⟩)
  | _, .constant v, _, hi, _, ha =>
    .of_obeys (.pure ha ⟨rfl, Value.WellTyped.imp (fun _ hf => hf.mono ha.1) hi⟩)
  | family, .read slot ty, h, _, a, ha => by
    obtain ⟨hd, -⟩ := Build.read_eq_ok h
    rw [Node.ty_eq_referenceTy _ h]
    refine .of_obeys (.read ha (fun x hx => ?_) fun e _ => Halt.fault_ne_exhausted e [])
    exact ha.2.2.readAs (by rw [ha.2.1]; exact hd) hx
  | _, .not n, h, hi, a, ha =>
    .bind (Node.eval_ends n h hi a ha) fun x _ hb _ _ => .of_obeys (.pure hb ⟨rfl, .bool (!x)⟩)
  | _, .negateInt n, h, hi, a, ha =>
    .bind (Node.eval_ends n h hi a ha) fun _ _ hb _ _ =>
      .of_obeys (.check_reducing hb fun m _ => ⟨rfl, .int m⟩)
  | _, .negateFloat n, h, hi, a, ha =>
    .bind (Node.eval_ends n h hi a ha) fun x _ hb _ _ => .of_obeys (.pure hb ⟨rfl, .float (-x)⟩)
  | _, .logic op m n, h, hi, a, ha =>
    .bind (Node.eval_ends m h.1 hi.1 a ha) fun x b hb _ _ => by
      cases op.decided? x with
      | some r => exact .of_obeys (.pure hb ⟨rfl, .bool r⟩)
      | none =>
        exact .bind (Node.eval_ends n h.2 hi.2 b hb) fun y _ hd _ _ =>
          .of_obeys (.pure hd ⟨rfl, .bool (op.apply x y)⟩)
  | _, .compareInt op m n, h, hi, a, ha =>
    .bind (Node.eval_ends m h.1 hi.1 a ha) fun x b hb _ _ =>
      .bind (Node.eval_ends n h.2 hi.2 b hb) fun y _ hd _ _ =>
        .of_obeys (.pure hd ⟨rfl, .bool (op.applyInt x y)⟩)
  | _, .compareFloat op m n, h, hi, a, ha =>
    .bind (Node.eval_ends m h.1 hi.1 a ha) fun x b hb _ _ =>
      .bind (Node.eval_ends n h.2 hi.2 b hb) fun y _ hd _ _ =>
        .of_obeys (.pure hd ⟨rfl, .bool (op.applyFloat x y)⟩)
  | _, .arithInt _ m n, h, hi, a, ha =>
    .bind (Node.eval_ends m h.1 hi.1 a ha) fun _ b hb _ _ =>
      .bind (Node.eval_ends n h.2 hi.2 b hb) fun _ _ hd _ _ =>
        .of_obeys (.check_reducing hd fun k _ => ⟨rfl, .int k⟩)
  | _, .arithFloat op m n, h, hi, a, ha =>
    .bind (Node.eval_ends m h.1 hi.1 a ha) fun x b hb _ _ =>
      .bind (Node.eval_ends n h.2 hi.2 b hb) fun y _ hd _ _ =>
        .of_obeys (.pure hd ⟨rfl, .float (op.apply x y)⟩)
  | _, .cond test m n, h, hi, a, ha => by
    obtain ⟨hsame, htest, hm, hn⟩ := h
    rw [Node.ty_cond]
    refine .bind (Node.eval_ends test htest hi.1 a ha) fun x b hb _ _ => ?_
    cases x with
    | true => exact Node.eval_ends m hm hi.2.1 b hb
    | false => rw [Build.cond_eq_ok hsame]; exact Node.eval_ends n hn hi.2.2 b hb
  | _, .block bindings body, h, hi, a, ha => by
    rw [Node.ty_block]
    exact .bind (Bindings.execute_ends bindings h.1 hi.1 a ha) fun _ b hb _ _ =>
      Node.eval_ends body h.2 hi.2 b hb
  | family, .call callee args result, h, hi, a, ha => by
    rw [Node.ty_eq_referenceTy _ h]
    obtain ⟨hbuild, hcallee, hargs⟩ := h
    obtain ⟨hty, hfamily⟩ := Build.call_eq_ok hbuild
    refine .bind (Node.eval_ends callee hcallee hi.1 a ha) fun f b hb _ hf => ?_
    refine .bind (Nodes.eval_ends args hargs hi.2 b hb) fun values d hd grown hvalues => ?_
    rw [hty] at hf
    obtain ⟨g, hg, hsignature, hreducible⟩ := hf.function
    cases hg
    have hvalues : List.Forall₂ (Value.Of (Function.Reducible code d.store))
        f.target.signature.params values := by rw [hsignature]; exact hvalues
    refine .bind (callChecked_ends hd (hreducible.mono grown) hvalues (by rw [hsignature]))
      fun v e he _ hv => .of_obeys (.check_reducing he fun x hx => ?_)
    obtain ⟨y, hy, hbox⟩ := Value.unbox_of_family (by rw [← Value.family_ty, hv.ty, hfamily])
    rw [lift_defect_eq_ok.mpr hy] at hx
    cases hx
    rw [hbox]
    exact hv
  | family, .index seq i element, h, hi, a, ha => by
    rw [Node.ty_eq_referenceTy _ h]
    obtain ⟨hbuild, hseq, hindex⟩ := h
    obtain ⟨hty, hfamily⟩ := Build.index_eq_ok hbuild
    refine .bind (Node.eval_ends seq hseq hi.1 a ha) fun v b hb _ hv => ?_
    rw [hty] at hv
    obtain ⟨w, hw, -, hstorage⟩ := hv.view
    refine .bind_check (lift_defect_eq_ok.mpr hw) ?_
    refine .bind (Node.eval_ends i hindex hi.2 b hb) fun k e he grown _ => ?_
    exact .of_obeys (.check_reducing he fun x hx =>
      (ViewOf.getAs_of (hstorage.mono grown) hfamily k).ok hx)
  | _, .slice seq slicer, h, hi, a, ha => by
    obtain ⟨hbuild, hseq, hslicer⟩ := h
    obtain ⟨⟨element, hty⟩, -⟩ := Build.slice_eq_ok hbuild
    rw [show (Node.slice seq slicer).ty = seq.ty from rfl, hty]
    refine .bind (Node.eval_ends seq hseq hi.1 a ha) fun v b hb _ hv => ?_
    rw [hty] at hv
    obtain ⟨w, hw, rfl, hstorage⟩ := hv.view
    refine .bind_check (lift_defect_eq_ok.mpr hw) ?_
    refine .bind (Node.eval_ends slicer hslicer hi.2 b hb) fun u e he grown _ => .of_obeys ?_
    refine .bind (p := fun _ b => b = e) (.check_reducing he fun _ _ => rfl) ?_
    rintro range b hb - rfl
    refine .bind (p := fun _ c => c = b) (.check_reducing hb fun _ _ => rfl) ?_
    rintro range c hc - rfl
    refine .bind (p := fun x d => x.array = w.array ∧ d = c)
      (.check_reducing hc fun x hx => ⟨(w.slice_gives range).ok hx, rfl⟩) ?_
    rintro x d hd - ⟨harray, rfl⟩
    have hof : x.array.storage.Of (Function.Reducible code d.store) x.array.element := by
      rw [harray]
      exact hstorage.mono grown
    rw [← harray]
    exact .pure hd hof.slice
  | _, .array element items, h, hi, a, ha => by
    obtain ⟨hbuild, hitems⟩ := h
    refine .bind (Nodes.fill_ends items hitems hi (Build.array_eq_ok hbuild) (.new element) a ha
      .new) fun d b hb _ hd => ?_
    refine .bind (.onStore hb (.of_obeys newStorage_later)) fun id e he grown _ => .of_obeys ?_
    exact .pure he ((hd.mono grown).finish id)
  | _, .intRange first last step, h, hi, a, ha =>
    .bind (Part.eval_ends first h.1 hi.1 a ha) fun _ b hb _ _ =>
      .bind (Part.eval_ends last h.2.1 hi.2.1 b hb) fun _ d hd _ _ =>
        .bind (Part.eval_ends step h.2.2 hi.2.2 d hd) fun _ _ he _ _ => .of_obeys <|
          .bind (p := fun _ _ => True) (.check_reducing he fun _ _ => trivial) fun r _ hg _ _ =>
            .pure hg ⟨rfl, .range (.int r)⟩
  | _, .floatRange first last step, h, hi, a, ha =>
    .bind (Part.eval_ends first h.1 hi.1 a ha) fun _ b hb _ _ =>
      .bind (Part.eval_ends last h.2.1 hi.2.1 b hb) fun _ d hd _ _ =>
        .bind (Part.eval_ends step h.2.2 hi.2.2 d hd) fun _ _ he _ _ => .of_obeys <|
          .bind (p := fun _ _ => True) (.check_reducing he fun _ _ => trivial) fun r _ hg _ _ =>
            .pure hg ⟨rfl, .range (.float r)⟩
  | _, .define target capture, _, hi, a, ha => by
    refine .of_obeys ((instantiate_reducing ha hi capture).imp ?_)
    rintro f b ⟨rfl, hf⟩
    exact ⟨rfl, .function hf⟩

theorem Nodes.eval_ends : (ns : Nodes) → ns.Accepted code good layout →
    ns.All (Item.Reducible code base) → (a : Activation) →
    (Discipline.reducing code base layout).holds a →
    Run.Ends (.reducing code base layout) (fun depth => ns.eval (code.call depth)) a
      fun vs b => List.Forall₂ (Value.Of (Function.Reducible code b.store)) ns.types vs
  | .nil, _, _, _, ha => .of_obeys (.pure ha .nil)
  | .cons _ n ns, h, hi, a, ha =>
    .bind (Node.eval_ends n h.1 hi.1 a ha) fun _ b hb _ hx =>
      .bind (Nodes.eval_ends ns h.2 hi.2 b hb) fun _ _ hd grown hvs =>
        .of_obeys (.pure hd (.cons (hx.mono grown) hvs))

theorem Nodes.fill_ends : (ns : Nodes) → ns.Accepted code good layout →
    ns.All (Item.Reducible code base) → {element : Ty} → (∀ t ∈ ns.types, t = element) →
    (d : Builder) → (a : Activation) → (Discipline.reducing code base layout).holds a →
    d.Of (Function.Reducible code a.store) element →
    Run.Ends (.reducing code base layout) (fun depth => ns.fill (code.call depth) d) a
      fun d b => d.Of (Function.Reducible code b.store) element
  | .nil, _, _, _, _, _, _, ha, hd => .of_obeys (.pure ha hd)
  | .cons family n ns, h, hi, element, hty, d, a, ha, hd => by
    refine .bind (Node.eval_ends n h.1 hi.1 a ha) fun x b hb grown hx => ?_
    have helement : n.ty = element := hty _ List.mem_cons_self
    have hfamily : element.family = family := by rw [← helement]; exact n.family_ty h.1
    rw [helement] at hx
    obtain ⟨e, he, hof⟩ := (hd.mono grown).push hx
    rw [← hd.pushAs_eq hfamily x] at he
    exact .bind_check he
      (Nodes.fill_ends ns h.2 hi.2 (fun t ht => hty t (List.mem_cons_of_mem _ ht)) e b hb hof)

theorem Part.eval_ends : {family : Family} → (p : Part family) → p.Accepted code good layout →
    p.All (Item.Reducible code base) → (a : Activation) →
    (Discipline.reducing code base layout).holds a →
    Run.Ends (.reducing code base layout) (fun depth => p.eval (code.call depth)) a
      fun _ _ => True
  | _, .none, _, _, _, ha => .of_obeys (.pure ha trivial)
  | _, .some n, h, hi, a, ha =>
    .bind (Node.eval_ends n h hi a ha) fun _ _ hb _ _ => .of_obeys (.pure hb trivial)

theorem Bindings.execute_ends : (bs : Bindings) → bs.Accepted code good layout →
    bs.All (Item.Reducible code base) → (a : Activation) →
    (Discipline.reducing code base layout).holds a →
    Run.Ends (.reducing code base layout) (fun depth => bs.execute (code.call depth)) a
      fun _ _ => True
  | .nil, _, _, _, ha => .of_obeys (.pure ha trivial)
  | .bind _ _ n rest, h, hi, a, ha =>
    .bind (Node.eval_ends n h.2.1 hi.1 a ha) fun _ _ hb _ hx =>
      (writeAs_reducing hb hx).bind_ends fun _ d hd _ _ =>
        Bindings.execute_ends rest h.2.2 hi.2 d hd
  | .bindRec _ _ _ _, _, hi, _, _ => hi.1.elim

end

theorem AnyNode.eval_ends (n : AnyNode) (h : n.node.Accepted code good layout)
    (hi : n.node.All (Item.Reducible code base))
    (ha : (Discipline.reducing code base layout).holds a) :
    Run.Ends (.reducing code base layout) (fun depth => n.eval (code.call depth)) a
      fun v b => v.Of (Function.Reducible code b.store) n.ty :=
  .bind (Node.eval_ends n.node h hi a ha) fun _ _ hb _ hx => .of_obeys (.pure hb hx)

end

end TypedEval
