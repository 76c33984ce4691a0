import TypedEval.Proofs.Boxed.Agreement
import TypedEval.Proofs.Boxed.Basic
import TypedEval.Proofs.Builtin.Protocol
import TypedEval.Proofs.Node.Accepted
import TypedEval.Proofs.Typing.Admitted

/-!
# Trees on boxed values

Slots, elements and results are of the types that a tree was accepted with, so each access in a family
is the boxed access. Over two ways of calling that agree, an accepted node is evaluated unboxed as it
is boxed; the induction follows the tree.

Nothing is asked of the closures that functions name. A host function has to abide by the signature
that it was registered with; it may call guest functions with values of any types, since a body checks
what is written to its parameters.
-/

namespace TypedEval

/-! ## Calls of admitted functions -/

/-- A call of an admitted function with well-typed values. For a host function they are of its
parameter types. -/
structure Function.Callable (good : Function → Prop) (f : Function) (args : List Value) : Prop where
  admitted : good f
  wellTyped : ∀ v ∈ args, v.WellTyped good
  native : f.target.isNative = true → args.map Value.ty = f.target.signature.params

/-- **Host functions abide by the signatures they were registered with**: from arguments of the
parameter types they end in values of the result type, and the calls that they make are calls of
admitted functions with well-typed values. -/
def Code.Abides (code : Code) (hosts : Nat → Signature → Prop) : Prop :=
  ∀ id script signature, code.routines[id]? = some (.native script) → hosts id signature →
    ∀ args, List.Forall₂ (Value.Of (code.Admits hosts)) signature.params args →
      (script args).Abides (Function.Callable (code.Admits hosts))
        (Function.Returns (code.Admits hosts)) (Value.Of (code.Admits hosts) signature.result)

section

variable {good : Function → Prop}

/-- A call that fits the signature of its function. -/
theorem Function.Takes.callable {f : Function} {args : List Value} (h : f.Takes good args) :
    f.Callable good args :=
  ⟨h.admitted, wellTyped_of_forall₂ h.args, fun _ => types_of_forall₂ h.args⟩

/-- **Two ways of calling agree** on calls of admitted functions. -/
def Caller.Agrees (good : Function → Prop) (call boxed : Caller) : Prop :=
  ∀ (f : Function) (args : List Value) (s : Store), s.Of good → f.Callable good args →
    Run.Agrees (Store.Of good) id (fun v _ => f.Returns good v) (call f args) (boxed f args) s

/-! ## Operations of an activation -/

variable {layout : Layout} {a : Activation} {call boxed : Caller}

theorem Run.Agrees.onStore {α β : Type} {box : α → β} {m : Run Store α} {n : Run Store β}
    {r : α → Store → Prop} (ha : a.Of good layout)
    (h : Run.Agrees (Store.Of good) box r m n a.store) :
    Run.Agrees (Activation.Of good layout) box (fun x b => r x b.store) (Activation.onStore m)
      (Activation.onStore n) a :=
  h.focus (fun _ hs => ⟨ha.layout, ha.frame, hs⟩) (fun _ _ hr => hr)

theorem newStorage_agrees {s : Store} (hs : s.Of good) :
    Run.Agrees (Store.Of good) id (fun _ _ => True) Store.newStorage Store.newStorage s :=
  .of_ok rfl rfl hs trivial

theorem callChecked_agrees (hcall : Caller.Agrees good call boxed) (ha : a.Of good layout)
    {f : Function} {args : List Value} {result : Ty} (hf : f.Callable good args)
    (hresult : f.target.signature.result = result) :
    Run.Agrees (Activation.Of good layout) id (fun v _ => v.Of good result)
      (callChecked call f args result) (callChecked boxed f args result) a := by
  refine (Run.Agrees.onStore ha (hcall f args a.store ha.store hf)).bind fun v b hb hv => ?_
  have hv : v.Of good result := by rw [← hresult]; exact hv
  have hfamily : v.family = result.family := by rw [← Value.family_ty, hv.ty]
  show Run.Agrees _ _ _ (if v.family = result.family then _ else _)
    (if v.family = result.family then _ else _) b
  rw [if_pos hfamily, if_pos hfamily]
  exact .pure rfl hb hv

/-- The slot of a binding takes what its node handed over. -/
theorem writeAs_agrees (ha : a.Of good layout) {slot : Nat} {ty : Ty}
    (hd : layout.Declares slot ty) {family : Family} (hfamily : ty.family = family)
    {x : Carrier family} (hx : (family.box x).Of good ty) :
    Run.Agrees (Activation.Of good layout) id
      (fun _ b => b.store = a.store ∧ b.frame = a.frame.setCell slot (family.box x).cell)
      (Activation.updateFrame (·.writeAs slot family x))
      (Activation.updateFrame (·.writeValue slot (family.box x))) a := by
  obtain ⟨rfl, hframe, hstore⟩ := ha
  refine .updateFrame (Frame.writeAs_eq_writeValue hd hfamily hx.ty) ⟨rfl, hframe, hstore⟩
    fun g hg => ?_
  obtain ⟨hlayout, hof⟩ := hframe.writeValue hx.wellTyped hg
  exact ⟨⟨hlayout, hof, hstore⟩, rfl, (Frame.setCell_of_writeValue hg).1⟩

/-! ## The recursive knot -/

section Knot

variable {target : Target} {capture : Capture} {slot closureSlot : Nat} {f : Function} {l : Layout}

/-- The closure that a function names, if it is there, has a layout. -/
def Function.ClosureOf (l : Layout) (s : Store) (f : Function) : Prop :=
  ∀ id frame, f.closureId? = some id → s.closures[id]? = some frame → frame.layout = l

/-- **A definition is evaluated in one way only**, and its closure is laid out as it captures. -/
theorem instantiate_agrees (ha : a.Of good layout) (hgood : ∀ c, good ⟨target, c⟩) :
    Run.Agrees (Activation.Of good layout) id
      (fun f b => f.target = target ∧ good f ∧ f.ClosureOf capture.closure b.store)
      (instantiate target capture) (instantiate target capture) a := by
  obtain ⟨-, h⟩ | ⟨f, -, h⟩ | ⟨frame, hframe, h⟩ := instantiate_cases target capture a
  · exact .of_ok h h ha ⟨rfl, hgood _, fun _ _ hid => (nomatch hid)⟩
  · exact .of_halt h h ha
  · obtain ⟨hlayout, hof⟩ := copySlots_of ha.frame (.allocate capture.closure) capture.transfers hframe
    refine .of_ok h h ⟨ha.layout, ha.frame, ha.store.addClosure hof⟩ ⟨rfl, hgood _, ?_⟩
    rintro id g hid hg
    cases hid
    cases (a.store.getElem?_addClosure_self frame).symm.trans hg
    rw [hlayout, Frame.layout_allocate]

theorem ensureClosure_agrees (ha : a.Of good layout) (hgood : ∀ c, good ⟨f.target, c⟩)
    (hslot : layout.Declares slot f.ty) (hl : f.target.closure = some l)
    (hclosure : f.ClosureOf l a.store) :
    Run.Agrees (Activation.Of good layout) id
      (fun r b => r.2.target = f.target ∧ ∀ frame, b.store.closures[r.1]? = some frame →
        frame.layout = l)
      (ensureClosure slot f) (ensureClosureBoxed slot f) a := by
  unfold ensureClosure ensureClosureBoxed
  have looked : Run.Agrees (Activation.Of good layout) id
      (fun r b => b = a ∧ f.closureIn a.store = .ok r)
      (Run.read fun (a : Activation) => f.closureIn a.store)
      (Run.read fun (a : Activation) => f.closureIn a.store) a :=
    .read (id_map _).symm ha fun r hr => ⟨rfl, lift_defect_eq_ok.mp hr⟩
  refine looked.bind ?_
  rintro r b hb ⟨rfl, hr⟩
  cases r with
  | some found =>
    obtain ⟨id, frame⟩ := found
    obtain ⟨hid, hframe⟩ := Function.closure_of_closureIn hr
    refine .pure rfl hb ⟨rfl, fun g hg => hclosure id g hid hg⟩
  | none =>
    simp only [id_eq, hl]
    have made : Run.Agrees (Activation.Of good layout) id
        (fun k c => k = b.store.closures.size ∧ c.store = (b.store.addClosure (.allocate l)).2)
        (Activation.onStore fun s => (.ok s.closures.size, (s.addClosure (.allocate l)).2))
        (Activation.onStore fun s => (.ok s.closures.size, (s.addClosure (.allocate l)).2)) b :=
      .of_ok rfl rfl ⟨hb.layout, hb.frame, hb.store.addClosure (.allocate l)⟩ ⟨rfl, rfl⟩
    refine made.bind ?_
    rintro k c hc ⟨rfl, hstore⟩
    have hwith : (Family.function.box (f.withClosure b.store.closures.size)).Of good f.ty :=
      ⟨rfl, .function (hgood _)⟩
    refine (writeAs_agrees hc hslot rfl hwith).bind fun _ d hd hwritten => ?_
    refine .pure rfl hd ⟨rfl, fun g hg => ?_⟩
    rw [hwritten.1, hstore] at hg
    cases (b.store.getElem?_addClosure_self (.allocate l)).symm.trans hg
    exact Frame.layout_allocate l

/-- A function is written into its own closure, in a slot of its type. -/
theorem writeSelf_agrees {s : Store} {k : Nat} (hs : s.Of good) (hgood : ∀ c, good ⟨f.target, c⟩)
    (hd : l.Declares closureSlot f.ty)
    (hlayout : ∀ frame, s.closures[k]? = some frame → frame.layout = l) :
    Run.Agrees (Store.Of good) id (fun _ _ => True) (writeSelf k closureSlot f)
      (writeSelfBoxed k closureSlot f) s := by
  unfold writeSelf writeSelfBoxed
  cases hk : s.closures[k]? with
  | none => exact .update (by simp only [hk]) hs fun t ht => by simp only [hk] at ht; cases ht
  | some frame =>
    have hd : frame.layout.Declares closureSlot f.ty := by rw [hlayout frame hk]; exact hd
    have same : frame.writeFunction closureSlot f.selfReference
        = frame.writeValue closureSlot (.function f.selfReference) :=
      Frame.writeFunction_eq_writeValue hd
    refine .update (by simp only [hk, same]) hs fun t ht => ⟨?_, trivial⟩
    simp only [hk] at ht
    obtain ⟨g, hg, ht⟩ := bind_eq_ok.mp ht
    cases ht
    exact hs.setClosure ((hs k frame hk).writeValue (.function (hgood _)) hg).2 k

/-- **The knot of a definition is tied in one way only.** -/
theorem tieKnot_agrees (ha : a.Of good layout) (hgood : ∀ c, good ⟨f.target, c⟩)
    (hslot : layout.Declares slot f.ty) (hread : a.frame.readFunction slot = .ok f)
    (hl : f.target.closure = some l) (hclosure : f.ClosureOf l a.store)
    (hd : l.Declares closureSlot f.ty) :
    Run.Agrees (Activation.Of good layout) id (fun _ _ => True) (tieKnot slot closureSlot)
      (tieKnotBoxed slot closureSlot) a := by
  unfold tieKnot tieKnotBoxed
  have value := ha.frame.readValue_eq (by rw [ha.layout]; exact hslot)
    (show f.ty.family = .function from rfl)
  have read : Run.Agrees (Activation.Of good layout) Value.function (fun g b => b = a ∧ g = f)
      (Activation.readFrame (·.readFunction slot)) (Activation.readFrame (·.readValue slot)) a :=
    .read value ha fun g hg => ⟨rfl, Except.ok.inj (hg.symm.trans hread)⟩
  refine read.bind ?_
  rintro g b hb ⟨rfl, rfl⟩
  refine .unboxed rfl ((ensureClosure_agrees hb hgood hslot hl hclosure).bind ?_)
  rintro ⟨k, h⟩ c hc ⟨htarget, hlayout⟩
  have hty : h.ty = g.ty := by rw [Function.ty, htarget]; rfl
  exact .onStore hc (writeSelf_agrees hc.store (by rw [htarget]; exact hgood)
    (by rw [hty]; exact hd) hlayout)

end Knot

end

/-! ## The tree -/

section

variable {code : Code} {hosts : Nat → Signature → Prop} {layout : Layout} {call boxed : Caller}

mutual

/-- **An accepted node is evaluated unboxed as it is boxed.** -/
theorem Node.evalBoxed_agrees (hcall : Caller.Agrees (code.Admits hosts) call boxed) :
    {family : Family} → (n : Node family) → n.Accepted code (code.Admits hosts) layout →
    n.DefinesRecursion → (a : Activation) → a.Of (code.Admits hosts) layout →
    Run.Agrees (Activation.Of (code.Admits hosts) layout) family.box
      (fun x _ => (family.box x).Of (code.Admits hosts) n.ty) (n.eval call) (n.evalBoxed boxed) a
  | _, .bool b, _, _, _, ha => .pure rfl ha ⟨rfl, .bool b⟩
  | _, .int n, _, _, _, ha => .pure rfl ha ⟨rfl, .int n⟩
  | _, .float x, _, _, _, ha => .pure rfl ha ⟨rfl, .float x⟩
  | _, .function _, h, _, _, ha => .pure rfl ha ⟨rfl, .function h⟩
  | _, .constant _, h, _, _, ha => .pure rfl ha ⟨rfl, h.2⟩
  | family, .read slot ty, h, _, a, ha => by
    obtain ⟨hd, hfamily⟩ := Build.read_eq_ok h
    have hd : a.frame.layout.Declares slot ty := by rw [ha.layout]; exact hd
    rw [Node.ty_eq_referenceTy _ h]
    exact .read (ha.frame.readValue_eq hd hfamily) ha fun x hx => ha.frame.readAs hd hx
  | _, .not n, h, hr, a, ha =>
    .bind (Node.evalBoxed_agrees hcall n h hr a ha) fun x _ hb _ =>
      .unboxed rfl (.pure rfl hb ⟨rfl, .bool (!x)⟩)
  | _, .negateInt n, h, hr, a, ha =>
    .bind (Node.evalBoxed_agrees hcall n h hr a ha) fun _ _ hb _ =>
      .unboxed rfl (.boxed (.check hb fun m _ => ⟨rfl, .int m⟩))
  | _, .negateFloat n, h, hr, a, ha =>
    .bind (Node.evalBoxed_agrees hcall n h hr a ha) fun x _ hb _ =>
      .unboxed rfl (.pure rfl hb ⟨rfl, .float (-x)⟩)
  | _, .logic op m n, h, hr, a, ha =>
    .bind (Node.evalBoxed_agrees hcall m h.1 hr.1 a ha) fun x b hb _ => by
      refine .unboxed rfl ?_
      cases op.decided? x with
      | some r => exact .pure rfl hb ⟨rfl, .bool r⟩
      | none =>
        exact .bind (Node.evalBoxed_agrees hcall n h.2 hr.2 b hb) fun y _ hd _ =>
          .unboxed rfl (.pure rfl hd ⟨rfl, .bool (op.apply x y)⟩)
  | _, .compareInt op m n, h, hr, a, ha =>
    .bind (Node.evalBoxed_agrees hcall m h.1 hr.1 a ha) fun x b hb _ => .unboxed rfl <|
      .bind (Node.evalBoxed_agrees hcall n h.2 hr.2 b hb) fun y _ hd _ =>
        .unboxed rfl (.pure rfl hd ⟨rfl, .bool (op.applyInt x y)⟩)
  | _, .compareFloat op m n, h, hr, a, ha =>
    .bind (Node.evalBoxed_agrees hcall m h.1 hr.1 a ha) fun x b hb _ => .unboxed rfl <|
      .bind (Node.evalBoxed_agrees hcall n h.2 hr.2 b hb) fun y _ hd _ =>
        .unboxed rfl (.pure rfl hd ⟨rfl, .bool (op.applyFloat x y)⟩)
  | _, .arithInt _ m n, h, hr, a, ha =>
    .bind (Node.evalBoxed_agrees hcall m h.1 hr.1 a ha) fun _ b hb _ => .unboxed rfl <|
      .bind (Node.evalBoxed_agrees hcall n h.2 hr.2 b hb) fun _ _ hd _ =>
        .unboxed rfl (.boxed (.check hd fun k _ => ⟨rfl, .int k⟩))
  | _, .arithFloat op m n, h, hr, a, ha =>
    .bind (Node.evalBoxed_agrees hcall m h.1 hr.1 a ha) fun x b hb _ => .unboxed rfl <|
      .bind (Node.evalBoxed_agrees hcall n h.2 hr.2 b hb) fun y _ hd _ =>
        .unboxed rfl (.pure rfl hd ⟨rfl, .float (op.apply x y)⟩)
  | _, .cond test m n, h, hr, a, ha => by
    obtain ⟨hsame, htest, hm, hn⟩ := h
    rw [Node.ty_cond]
    refine .bind (Node.evalBoxed_agrees hcall test htest hr.1 a ha) fun x b hb _ => ?_
    refine .unboxed rfl ?_
    cases x with
    | true => exact Node.evalBoxed_agrees hcall m hm hr.2.1 b hb
    | false => rw [Build.cond_eq_ok hsame]; exact Node.evalBoxed_agrees hcall n hn hr.2.2 b hb
  | _, .block bindings body, h, hr, a, ha => by
    rw [Node.ty_block]
    exact .bind (Bindings.executeBoxed_agrees hcall bindings h.1 hr.1 a ha) fun _ b hb _ =>
      Node.evalBoxed_agrees hcall body h.2 hr.2 b hb
  | family, .call callee args result, h, hr, a, ha => by
    rw [Node.ty_eq_referenceTy _ h]
    obtain ⟨hbuild, hcallee, hargs⟩ := h
    obtain ⟨hty, hfamily⟩ := Build.call_eq_ok hbuild
    refine .bind (Node.evalBoxed_agrees hcall callee hcallee hr.1 a ha) fun f b hb hf => ?_
    refine .unboxed rfl ?_
    refine .bind (Nodes.evalBoxed_agrees hcall args hargs hr.2 b hb) fun values d hd hvalues => ?_
    rw [hty] at hf
    obtain ⟨g, hg, hsignature, hadmitted⟩ := hf.function
    cases hg
    have callable : f.Callable (code.Admits hosts) values :=
      Function.Takes.callable ⟨hadmitted, by rw [hsignature]; exact hvalues⟩
    refine (callChecked_agrees hcall hd callable (by rw [hsignature])).unboxing ?_ ?_
    · intro v _ hv
      obtain ⟨x, hx, hbox⟩ := Value.unbox_of_family (by rw [← Value.family_ty, hv.ty, hfamily])
      exact ⟨x, lift_defect_eq_ok.mpr hx, hbox⟩
    · intro v _ x hv hx
      obtain ⟨y, hy, hbox⟩ := Value.unbox_of_family (by rw [← Value.family_ty, hv.ty, hfamily])
      rw [lift_defect_eq_ok.mpr hy] at hx
      cases hx
      rw [hbox]
      exact hv
  | family, .index seq i element, h, hr, a, ha => by
    rw [Node.ty_eq_referenceTy _ h]
    obtain ⟨hbuild, hseq, hi⟩ := h
    obtain ⟨hty, hfamily⟩ := Build.index_eq_ok hbuild
    refine .bind (Node.evalBoxed_agrees hcall seq hseq hr.1 a ha) fun v b hb hv => ?_
    rw [hty] at hv
    obtain ⟨w, hw, -, hstorage⟩ := hv.view
    refine .passed (lift_defect_eq_ok.mpr hw) ?_
    refine .bind (Node.evalBoxed_agrees hcall i hi hr.2 b hb) fun k e he _ => .unboxed rfl ?_
    have elementwise : (Run.check (w.getAs family k) >>= fun x => pure (family.box x) :
        Run Activation Value) = Run.check (w.get k) >>= fun v =>
          Run.check (family.unbox v) >>= fun x => pure (family.box x) := by
      rw [ViewOf.getAs_eq_get hstorage hfamily, Run.check_bind, bind_assoc]
    show Run.Agrees _ _ _ _ (Run.check (w.get k) >>= fun v =>
      Run.check (family.unbox v) >>= fun x => pure (family.box x)) e
    rw [← elementwise]
    exact .boxed (.check he fun x hx => (ViewOf.getAs_of hstorage hfamily k).ok hx)
  | _, .slice seq slicer, h, hr, a, ha => by
    obtain ⟨hbuild, hseq, hslicer⟩ := h
    obtain ⟨⟨element, hty⟩, hrange⟩ := Build.slice_eq_ok hbuild
    rw [show (Node.slice seq slicer).ty = seq.ty from rfl, hty]
    refine .bind (Node.evalBoxed_agrees hcall seq hseq hr.1 a ha) fun v b hb hv => ?_
    rw [hty] at hv
    obtain ⟨w, hw, rfl, hstorage⟩ := hv.view
    refine .passed (lift_defect_eq_ok.mpr hw) ?_
    refine .bind (Node.evalBoxed_agrees hcall slicer hslicer hr.2 b hb) fun u e he hu => ?_
    rw [hrange] at hu
    obtain ⟨r, rfl, hint⟩ := Value.eq_range_of_ty hu.ty
    cases r with
    | float r => cases hint
    | int r =>
      refine .passed (c := Range.int r) rfl (.passed (c := r) rfl ?_)
      refine .bind (p := fun z _ => z.array = w.array)
        (.check he fun z hz => (w.slice_gives r).ok hz) fun z d hd hz => ?_
      have hof : z.array.storage.Of (code.Admits hosts) z.array.element := by
        rw [hz]
        exact hstorage
      rw [← hz]
      exact .pure rfl hd hof.slice
  | _, .array element items, h, hr, a, ha => by
    obtain ⟨hbuild, hitems⟩ := h
    refine .bind (Nodes.fillBoxed_agrees hcall items hitems hr (Build.array_eq_ok hbuild)
      (.new element) a ha .new) fun d b hb hd => ?_
    exact .bind (.onStore hb (newStorage_agrees hb.store)) fun id e he _ =>
      .pure rfl he (hd.finish id)
  | _, .intRange first last step, h, hr, a, ha =>
    .bind (Part.evalBoxed_agrees hcall first h.1 hr.1 a ha) fun _ b hb _ =>
      .bind (Part.evalBoxed_agrees hcall last h.2.1 hr.2.1 b hb) fun _ d hd _ =>
        .bind (Part.evalBoxed_agrees hcall step h.2.2 hr.2.2 d hd) fun _ _ he _ =>
          .bind (p := fun _ _ => True) (.check he fun _ _ => trivial) fun r _ hg _ =>
            .pure rfl hg ⟨rfl, .range (.int r)⟩
  | _, .floatRange first last step, h, hr, a, ha =>
    .bind (Part.evalBoxed_agrees hcall first h.1 hr.1 a ha) fun _ b hb _ =>
      .bind (Part.evalBoxed_agrees hcall last h.2.1 hr.2.1 b hb) fun _ d hd _ =>
        .bind (Part.evalBoxed_agrees hcall step h.2.2 hr.2.2 d hd) fun _ _ he _ =>
          .bind (p := fun _ _ => True) (.check he fun _ _ => trivial) fun r _ hg _ =>
            .pure rfl hg ⟨rfl, .range (.float r)⟩
  | _, .define target capture, h, _, a, ha => by
    obtain ⟨hclosure, -⟩ := Build.define_eq_ok h.1
    refine .boxed ((instantiate_agrees ha (h.2.admits hclosure hosts)).imp ?_)
    rintro f b ⟨rfl, hf, -⟩
    exact ⟨rfl, .function hf⟩

theorem Nodes.evalBoxed_agrees (hcall : Caller.Agrees (code.Admits hosts) call boxed) :
    (ns : Nodes) → ns.Accepted code (code.Admits hosts) layout → ns.DefinesRecursion →
    (a : Activation) → a.Of (code.Admits hosts) layout →
    Run.Agrees (Activation.Of (code.Admits hosts) layout) id
      (fun vs _ => List.Forall₂ (Value.Of (code.Admits hosts)) ns.types vs) (ns.eval call)
      (ns.evalBoxed boxed) a
  | .nil, _, _, _, ha => .pure rfl ha .nil
  | .cons _ n ns, h, hr, a, ha =>
    .bind (Node.evalBoxed_agrees hcall n h.1 hr.1 a ha) fun _ b hb hx =>
      .bind (Nodes.evalBoxed_agrees hcall ns h.2 hr.2 b hb) fun _ _ hd hvs =>
        .pure rfl hd (.cons hx hvs)

theorem Nodes.fillBoxed_agrees (hcall : Caller.Agrees (code.Admits hosts) call boxed) :
    (ns : Nodes) → ns.Accepted code (code.Admits hosts) layout → ns.DefinesRecursion →
    {element : Ty} → (∀ t ∈ ns.types, t = element) → (d : Builder) → (a : Activation) →
    a.Of (code.Admits hosts) layout → d.Of (code.Admits hosts) element →
    Run.Agrees (Activation.Of (code.Admits hosts) layout) id
      (fun d _ => d.Of (code.Admits hosts) element) (ns.fill call d) (ns.fillBoxed boxed d) a
  | .nil, _, _, _, _, _, _, ha, hd => .pure rfl ha hd
  | .cons family n ns, h, hr, element, hty, d, a, ha, hd => by
    refine .bind (Node.evalBoxed_agrees hcall n h.1 hr.1 a ha) fun x b hb hx => ?_
    have helement : n.ty = element := hty _ List.mem_cons_self
    have hfamily : element.family = family := by rw [← helement]; exact n.family_ty h.1
    rw [helement] at hx
    obtain ⟨e, he, hof⟩ := hd.push hx
    rw [hd.pushAs_eq hfamily x]
    exact .passed he (Nodes.fillBoxed_agrees hcall ns h.2 hr.2
      (fun t ht => hty t (List.mem_cons_of_mem _ ht)) e b hb hof)

theorem Part.evalBoxed_agrees (hcall : Caller.Agrees (code.Admits hosts) call boxed) :
    {family : Family} → (p : Part family) → p.Accepted code (code.Admits hosts) layout →
    p.DefinesRecursion → (a : Activation) → a.Of (code.Admits hosts) layout →
    Run.Agrees (Activation.Of (code.Admits hosts) layout) id (fun _ _ => True) (p.eval call)
      (p.evalBoxed boxed) a
  | _, .none, _, _, _, ha => .pure rfl ha trivial
  | family, .some n, h, hr, a, ha =>
    .bind (Node.evalBoxed_agrees hcall n h hr a ha) fun x _ hb _ =>
      .unboxed (lift_defect_eq_ok.mpr (family.unbox_box x)) (.pure rfl hb trivial)

theorem Bindings.executeBoxed_agrees (hcall : Caller.Agrees (code.Admits hosts) call boxed) :
    (bs : Bindings) → bs.Accepted code (code.Admits hosts) layout → bs.DefinesRecursion →
    (a : Activation) → a.Of (code.Admits hosts) layout →
    Run.Agrees (Activation.Of (code.Admits hosts) layout) id (fun _ _ => True) (bs.execute call)
      (bs.executeBoxed boxed) a
  | .nil, _, _, _, ha => .pure rfl ha trivial
  | .bind _ _ n rest, h, hr, a, ha =>
    .bind (Node.evalBoxed_agrees hcall n h.2.1 hr.1 a ha) fun _ _ hb hx =>
      .bind (writeAs_agrees hb (Build.bind_node_eq_ok h.1) (n.family_ty h.2.1) hx) fun _ d hd _ =>
        Bindings.executeBoxed_agrees hcall rest h.2.2 hr.2 d hd
  | .bindRec slot n closureSlot rest, h, hr, a, ha => by
    obtain ⟨⟨target, capture, rfl⟩, hrest⟩ := hr
    obtain ⟨hbind, ⟨hdefine, hdeclared⟩, hacc⟩ := h
    obtain ⟨hclosure, -⟩ := Build.define_eq_ok hdefine
    obtain ⟨hslot, hself⟩ := Build.bindRec_define_eq_ok hbind
    have hgood := hdeclared.admits hclosure hosts
    refine .bind (.boxed (instantiate_agrees ha hgood)) ?_
    rintro f b hb ⟨rfl, hf, hcaptured⟩
    have hvalue : (Family.function.box f).Of (code.Admits hosts) f.target.ty :=
      ⟨rfl, .function hf⟩
    refine .bind (writeAs_agrees hb hslot rfl hvalue) ?_
    rintro - d hd ⟨hstore, hframe⟩
    obtain ⟨s, hs, hty⟩ := Frame.slot_of_declares (by rw [hb.layout]; exact hslot)
    have hread : d.frame.readFunction slot = .ok f := by
      rw [hframe, Frame.readFunction_of_slot (Frame.slot_setCell_self _ hs) (by rw [hty]; rfl)]
      rfl
    rw [← hstore] at hcaptured
    exact .bind (tieKnot_agrees hd hgood hslot hread hclosure hcaptured hself) fun _ e he _ =>
      Bindings.executeBoxed_agrees hcall rest hacc hrest e he

end

theorem AnyNode.evalBoxed_agrees (hcall : Caller.Agrees (code.Admits hosts) call boxed)
    (n : AnyNode) (h : n.node.Accepted code (code.Admits hosts) layout)
    (hr : n.node.DefinesRecursion) {a : Activation} (ha : a.Of (code.Admits hosts) layout) :
    Run.Agrees (Activation.Of (code.Admits hosts) layout) id
      (fun v _ => v.Of (code.Admits hosts) n.ty) (n.eval call) (n.node.evalBoxed boxed) a :=
  (Node.evalBoxed_agrees hcall n.node h hr a ha).boxing fun _ _ hx => hx

end

end TypedEval
