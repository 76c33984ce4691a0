import TypedEval.Code
import TypedEval.Node.Build
import TypedEval.Proofs.Check
import TypedEval.Proofs.Node.Recursion
import TypedEval.Proofs.Typing.Basic

/-!
# Accepted trees

A tree is **accepted** over a layout when each of its nodes is what its constructor gives for its
parts: `Accepted` runs the constructor again and asks for the node itself. Constants and the targets
of definitions come from outside; they have to be well typed and declared. The laws before it say
what each constructor checked, the ones after it that an accepted node has a type of its family.
-/

namespace TypedEval

namespace Build

variable {layout : Layout} {family : Family}

/-! ## What a constructor checked -/

theorem constant_eq_ok {v : Value} {n : Node .reference} (h : constant v = .ok n) :
    v.family = .reference := by
  unfold constant at h
  split at h
  · next hv => exact hv
  · cases h

theorem family_of_ownType? {ty : Ty} (h : family.ownType? = some ty) : ty.family = family := by
  cases family <;> cases h <;> rfl

theorem read_eq_ok {slot : Nat} {ty : Ty} (h : read layout family slot = .ok (.read slot ty)) :
    layout.Declares slot ty ∧ ty.family = family := by
  unfold read at h
  split at h
  · next own hown =>
    obtain ⟨_, hslot, h⟩ := bind_eq_ok.mp h
    injection h with h
    injection h with _ _ hty
    subst hty
    exact ⟨Layout.expectSlot_eq_ok.mp hslot, family_of_ownType? hown⟩
  · next hown =>
    obtain ⟨t, hslot, h⟩ := bind_eq_ok.mp h
    have hdeclared := Layout.slotType_eq_ok.mp hslot
    split at h
    · next hfunction =>
      obtain ⟨_, hs, h⟩ := bind_eq_ok.mp h
      injection h with h
      injection h with _ _ hty
      subst hty
      obtain ⟨s, hs, _⟩ := bind_eq_ok.mp hs
      rw [hfunction, Ty.expectFunction_eq_ok.mp hs]
      exact ⟨Ty.expectFunction_eq_ok.mp hs ▸ hdeclared, rfl⟩
    · next hfunction =>
      split at h
      · cases h
      · next hreference =>
        injection h with h
        injection h with _ _ hty
        subst hty
        refine ⟨hdeclared, ?_⟩
        cases family <;> simp_all [Family.ownType?]

theorem checkFamily_eq_ok {context : String} {noSequence : Ty → Defect} {ty : Ty} {u : Unit}
    (h : checkFamily family context noSequence ty = .ok u) : ty.family = family := by
  unfold checkFamily at h
  split at h
  · next own hown =>
    rw [← Ty.expectSame_eq_ok.mp h]
    exact family_of_ownType? hown
  · next hown =>
    split at h
    · next hfunction =>
      obtain ⟨s, hs, _⟩ := bind_eq_ok.mp h
      rw [hfunction, Ty.expectFunction_eq_ok.mp hs]
      rfl
    · next hfunction =>
      split at h
      · cases h
      · next helement =>
        have hreference : family = .reference := by
          cases family <;> simp_all [Family.ownType?]
        subst hreference
        cases ty <;> first | rfl | exact absurd rfl helement

theorem cond_eq_ok {test : Node .bool} {a b n : Node family} (h : cond test a b = .ok n) :
    a.ty = b.ty := by
  obtain ⟨_, hty, _⟩ := bind_eq_ok.mp h
  exact Ty.expectSame_eq_ok.mp hty

theorem call_eq_ok {callee : Node .function} {args : Nodes} {result : Ty}
    (h : call family callee args = .ok (.call callee args result)) :
    callee.ty = .function args.types result ∧ result.family = family := by
  obtain ⟨s, hs, h⟩ := bind_eq_ok.mp h
  split at h
  · cases h
  · next haccepts =>
    obtain ⟨_, hfamily, h⟩ := bind_eq_ok.mp h
    injection h with h
    injection h with _ _ _ hresult
    have hparams : s.params = args.types := by simpa [Signature.accepts] using haccepts
    subst hresult
    rw [Ty.expectFunction_eq_ok.mp hs, ← hparams]
    exact ⟨rfl, checkFamily_eq_ok hfamily⟩

theorem index_eq_ok {seq : Node .reference} {i : Node .int} {element : Ty}
    (h : index family seq i = .ok (.index seq i element)) :
    seq.ty = .array element ∧ element.family = family := by
  unfold index at h
  split at h
  · next e he =>
    obtain ⟨_, hfamily, h⟩ := bind_eq_ok.mp h
    injection h with h
    injection h with _ _ _ helement
    subst helement
    exact ⟨he, checkFamily_eq_ok hfamily⟩
  · cases h

theorem slice_eq_ok {seq slicer n : Node .reference} (h : slice seq slicer = .ok n) :
    (∃ element, seq.ty = .array element) ∧ slicer.ty = .range .int := by
  unfold slice at h
  split at h
  · next e he =>
    obtain ⟨_, hslicer, _⟩ := bind_eq_ok.mp h
    exact ⟨⟨e, he⟩, (Ty.expectSame_eq_ok.mp hslicer).symm⟩
  · cases h

theorem checkElements_eq_ok {element : Ty} {ts : List Ty} {u : Unit} :
    checkElements element ts = .ok u ↔ ∀ t ∈ ts, t = element := by
  induction ts with
  | nil => exact ⟨fun _ _ h => (nomatch h), fun _ => rfl⟩
  | cons t ts ih =>
    simp only [checkElements, bind_eq_ok, Ty.expectSame_eq_ok, ih, List.forall_mem_cons]
    constructor
    · rintro ⟨_, rfl, hts⟩
      exact ⟨rfl, hts⟩
    · rintro ⟨rfl, hts⟩
      exact ⟨(), rfl, hts⟩

theorem array_eq_ok {element : Ty} {items : Nodes} {n : Node .reference}
    (h : array element items = .ok n) : ∀ t ∈ items.types, t = element := by
  obtain ⟨_, helements, _⟩ := bind_eq_ok.mp h
  exact checkElements_eq_ok.mp helements

theorem define_eq_ok {target : Target} {capture : Capture}
    (h : define layout target capture.transfers = .ok (.define target capture)) :
    target.closure = some capture.closure ∧
      checkTransfers layout capture.closure capture.transfers = .ok () := by
  unfold define at h
  split at h
  · cases h
  · next closure hclosure =>
    obtain ⟨c, hc, h⟩ := bind_eq_ok.mp h
    injection h with h
    injection h with _ hcapture
    subst hcapture
    obtain ⟨_, hts, hc⟩ := bind_eq_ok.mp hc
    injection hc with hc
    have hsame : closure = c.closure := congrArg Capture.closure hc
    rw [← hsame]
    exact ⟨hclosure, hts⟩

theorem bind_node_eq_ok {slot : Nat} {value : AnyNode} {f : Bindings → Bindings}
    (h : bind layout slot value = .ok f) : layout.Declares slot value.ty := by
  obtain ⟨_, hslot, _⟩ := bind_eq_ok.mp h
  exact Layout.expectSlot_eq_ok.mp hslot

theorem bindRec_define_eq_ok {slot closureSlot : Nat} {target : Target} {capture : Capture}
    {f : Bindings → Bindings} (h : bindRec layout slot (.define target capture) closureSlot = .ok f) :
    layout.Declares slot target.ty ∧ capture.closure.Declares closureSlot target.ty := by
  obtain ⟨_, hslot, h⟩ := bind_eq_ok.mp h
  obtain ⟨_, hclosure, _⟩ := bind_eq_ok.mp h
  exact ⟨Layout.expectSlot_eq_ok.mp hslot, Layout.expectSlot_eq_ok.mp hclosure⟩

end Build

/-- What the check of a function's layouts passed. -/
theorem FunctionSpec.check_eq_ok {f : FunctionSpec} {s : Signature} (h : f.check = .ok s) :
    s.params.length = f.params.length ∧ checkParams f.frame f.params s.params = .ok () ∧
      s.result = f.body.ty ∧ checkTransfers f.closure f.frame f.disclosure = .ok () := by
  obtain ⟨signature, _, h⟩ := bind_eq_ok.mp h
  split at h
  · cases h
  · next hlength =>
    obtain ⟨_, hparams, h⟩ := bind_eq_ok.mp h
    obtain ⟨_, hresult, h⟩ := bind_eq_ok.mp h
    obtain ⟨_, hdisclosure, h⟩ := bind_eq_ok.mp h
    cases h
    exact ⟨Classical.not_not.mp hlength, hparams, Ty.expectSame_eq_ok.mp hresult, hdisclosure⟩

/-! ## Accepted trees -/

section

variable (code : Code) (good : Function → Prop) (layout : Layout)

mutual

/-- **A node is accepted** over a layout: it and all its parts are what the constructors give, its
constants are well typed, and the targets it defines are declared. -/
def Node.Accepted : {family : Family} → Node family → Prop
  | _, .bool _ | _, .int _ | _, .float _ => True
  | _, .function f => good f
  | _, .constant v => Build.constant v = .ok (.constant v) ∧ v.WellTyped good
  | family, .read slot ty => Build.read layout family slot = .ok (.read slot ty)
  | _, .not a => a.Accepted
  | _, .negateInt a => a.Accepted
  | _, .negateFloat a => a.Accepted
  | _, .logic _ a b => a.Accepted ∧ b.Accepted
  | _, .compareInt _ a b => a.Accepted ∧ b.Accepted
  | _, .compareFloat _ a b => a.Accepted ∧ b.Accepted
  | _, .arithInt _ a b => a.Accepted ∧ b.Accepted
  | _, .arithFloat _ a b => a.Accepted ∧ b.Accepted
  | _, .cond test a b =>
    Build.cond test a b = .ok (.cond test a b) ∧ test.Accepted ∧ a.Accepted ∧ b.Accepted
  | _, .block bindings body => bindings.Accepted ∧ body.Accepted
  | family, .call callee args result =>
    Build.call family callee args = .ok (.call callee args result) ∧
      callee.Accepted ∧ args.Accepted
  | family, .index seq i element =>
    Build.index family seq i = .ok (.index seq i element) ∧ seq.Accepted ∧ i.Accepted
  | _, .slice seq slicer =>
    Build.slice seq slicer = .ok (.slice seq slicer) ∧ seq.Accepted ∧ slicer.Accepted
  | _, .array element items => Build.array element items = .ok (.array element items) ∧ items.Accepted
  | _, .intRange first last step => first.Accepted ∧ last.Accepted ∧ step.Accepted
  | _, .floatRange first last step => first.Accepted ∧ last.Accepted ∧ step.Accepted
  | _, .define target capture =>
    Build.define layout target capture.transfers = .ok (.define target capture) ∧
      code.Declares target

/-- The same of every node of a list. -/
def Nodes.Accepted : Nodes → Prop
  | .nil => True
  | .cons _ n ns => n.Accepted ∧ ns.Accepted

/-- The same of a part of a range. -/
def Part.Accepted : {family : Family} → Part family → Prop
  | _, .none => True
  | _, .some n => n.Accepted

/-- The same of every binding of a block. -/
def Bindings.Accepted : Bindings → Prop
  | .nil => True
  | .bind family slot n rest =>
    Build.bind layout slot ⟨family, n⟩ = .ok (.bind family slot n) ∧ n.Accepted ∧ rest.Accepted
  | .bindRec slot n closureSlot rest =>
    Build.bindRec layout slot n closureSlot = .ok (.bindRec slot n closureSlot) ∧
      n.Accepted ∧ rest.Accepted

end

end

/-- **Every body of a code table is accepted** over the layout of its frame. -/
def Code.Accepted (code : Code) (good : Function → Prop) : Prop :=
  ∀ body, .user body ∈ code.routines → body.node.node.Accepted code good body.frame

/-! ## The type of an accepted node -/

namespace Node

variable {code : Code} {good : Function → Prop} {layout : Layout} {family : Family}

theorem family_referenceTy : {family : Family} → (n : Node family) → n.Accepted code good layout →
    n.referenceTy.family = family
  | _, .bool _, _ | _, .int _, _ | _, .float _, _ | _, .function _, _ => rfl
  | _, .constant v, h => by
    show v.ty.family = .reference
    rw [Value.family_ty]
    exact Build.constant_eq_ok h.1
  | _, .read _ _, h => (Build.read_eq_ok h).2
  | _, .cond _ a _, h => family_referenceTy a h.2.2.1
  | _, .block _ body, h => family_referenceTy body h.2
  | _, .call _ _ _, h => (Build.call_eq_ok h.1).2
  | _, .index _ _ _, h => (Build.index_eq_ok h.1).2
  | _, .slice seq _, h => family_referenceTy seq h.2.1
  | _, .array _ _, _ | _, .intRange _ _ _, _ | _, .floatRange _ _ _, _ | _, .define _ _, _ => rfl
  | _, .not _, _ | _, .logic _ _ _, _ | _, .compareInt _ _ _, _ | _, .compareFloat _ _ _, _ => rfl
  | _, .negateInt _, _ | _, .arithInt _ _ _, _ | _, .negateFloat _, _ | _, .arithFloat _ _ _, _ =>
    rfl

/-- The type of an accepted node is the one that its construction found, in every family. -/
theorem ty_eq_referenceTy (n : Node family) (h : n.Accepted code good layout) :
    n.ty = n.referenceTy := by
  have hfamily := family_referenceTy n h
  cases family with
  | bool => exact (Ty.eq_bool_of_family hfamily).symm
  | int => exact (Ty.eq_int_of_family hfamily).symm
  | float => exact (Ty.eq_float_of_family hfamily).symm
  | function => rfl
  | reference => rfl

/-- **The type of an accepted node is of the node's family.** -/
theorem family_ty (n : Node family) (h : n.Accepted code good layout) : n.ty.family = family := by
  rw [ty_eq_referenceTy n h]
  exact family_referenceTy n h

theorem ty_cond (test : Node .bool) (a b : Node family) : (cond test a b).ty = a.ty := by
  cases family <;> rfl

theorem ty_block (bindings : Bindings) (body : Node family) : (block bindings body).ty = body.ty := by
  cases family <;> rfl

end Node

end TypedEval
