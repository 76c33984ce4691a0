import TypedEval.Proofs.Node.Accepted

/-!
# What stands in a tree

Constants, the targets of definitions, and recursive bindings are the **items** of a tree. `All` says
a property of every item, in all parts of a node; conditions on a tree that do not depend on where in
the tree an item stands are conditions on its items. What holds of all items is gathered from what is
known of each (`Node.All.gather`). What a constructor asks of the items of an accepted tree is known
of all of them (`Node.Accepted.items`).
-/

namespace TypedEval

/-- **An item of a tree.** -/
inductive Item where
  | constant (v : Value)
  | definition (target : Target)
  | recursion

mutual

/-- **Every item of a node has a property.** -/
def Node.All (p : Item → Prop) : {family : Family} → Node family → Prop
  | _, .bool _ | _, .int _ | _, .float _ | _, .read _ _ => True
  | _, .function f => p (.constant (.function f))
  | _, .constant v => p (.constant v)
  | _, .define target _ => p (.definition target)
  | _, .not a => a.All p
  | _, .negateInt a => a.All p
  | _, .negateFloat a => a.All p
  | _, .logic _ a b => a.All p ∧ b.All p
  | _, .compareInt _ a b => a.All p ∧ b.All p
  | _, .compareFloat _ a b => a.All p ∧ b.All p
  | _, .arithInt _ a b => a.All p ∧ b.All p
  | _, .arithFloat _ a b => a.All p ∧ b.All p
  | _, .cond test a b => test.All p ∧ a.All p ∧ b.All p
  | _, .block bindings body => bindings.All p ∧ body.All p
  | _, .call callee args _ => callee.All p ∧ args.All p
  | _, .index seq i _ => seq.All p ∧ i.All p
  | _, .slice seq slicer => seq.All p ∧ slicer.All p
  | _, .array _ items => items.All p
  | _, .intRange first last step => first.All p ∧ last.All p ∧ step.All p
  | _, .floatRange first last step => first.All p ∧ last.All p ∧ step.All p

/-- The same of every node of a list. -/
def Nodes.All (p : Item → Prop) : Nodes → Prop
  | .nil => True
  | .cons _ n ns => n.All p ∧ ns.All p

/-- The same of a part of a range. -/
def Part.All (p : Item → Prop) : {family : Family} → Part family → Prop
  | _, .none => True
  | _, .some n => n.All p

/-- The same of every binding of a block. -/
def Bindings.All (p : Item → Prop) : Bindings → Prop
  | .nil => True
  | .bind _ _ n rest => n.All p ∧ rest.All p
  | .bindRec _ n _ rest => p .recursion ∧ n.All p ∧ rest.All p

end

/-- **Some item of a node has a property.** -/
def Node.Has (p : Item → Prop) {family : Family} (n : Node family) : Prop := ¬ n.All fun i => ¬ p i

/-- The same of every body in a code table. -/
def Code.All (code : Code) (p : Item → Prop) : Prop :=
  ∀ body, .user body ∈ code.routines → body.node.node.All p

/-! ## Gathering -/

section

variable {ι : Type} {p : ι → Item → Prop} {q : Item → Prop}

mutual

/-- **What follows for an item from many properties holds of all items** that have them all. -/
theorem Node.All.gather (h : ∀ i, (∀ x, p x i) → q i) : {family : Family} → (n : Node family) →
    (∀ x, n.All (p x)) → n.All q
  | _, .bool _, _ | _, .int _, _ | _, .float _, _ | _, .read _ _, _ => trivial
  | _, .function _, hn => h _ hn
  | _, .constant _, hn => h _ hn
  | _, .define _ _, hn => h _ hn
  | _, .not a, hn => Node.All.gather h a hn
  | _, .negateInt a, hn => Node.All.gather h a hn
  | _, .negateFloat a, hn => Node.All.gather h a hn
  | _, .logic _ a b, hn =>
    ⟨Node.All.gather h a fun x => (hn x).1, Node.All.gather h b fun x => (hn x).2⟩
  | _, .compareInt _ a b, hn =>
    ⟨Node.All.gather h a fun x => (hn x).1, Node.All.gather h b fun x => (hn x).2⟩
  | _, .compareFloat _ a b, hn =>
    ⟨Node.All.gather h a fun x => (hn x).1, Node.All.gather h b fun x => (hn x).2⟩
  | _, .arithInt _ a b, hn =>
    ⟨Node.All.gather h a fun x => (hn x).1, Node.All.gather h b fun x => (hn x).2⟩
  | _, .arithFloat _ a b, hn =>
    ⟨Node.All.gather h a fun x => (hn x).1, Node.All.gather h b fun x => (hn x).2⟩
  | _, .cond test a b, hn =>
    ⟨Node.All.gather h test fun x => (hn x).1, Node.All.gather h a fun x => (hn x).2.1,
      Node.All.gather h b fun x => (hn x).2.2⟩
  | _, .block bindings body, hn =>
    ⟨Bindings.All.gather h bindings fun x => (hn x).1, Node.All.gather h body fun x => (hn x).2⟩
  | _, .call callee args _, hn =>
    ⟨Node.All.gather h callee fun x => (hn x).1, Nodes.All.gather h args fun x => (hn x).2⟩
  | _, .index seq i _, hn =>
    ⟨Node.All.gather h seq fun x => (hn x).1, Node.All.gather h i fun x => (hn x).2⟩
  | _, .slice seq slicer, hn =>
    ⟨Node.All.gather h seq fun x => (hn x).1, Node.All.gather h slicer fun x => (hn x).2⟩
  | _, .array _ items, hn => Nodes.All.gather h items hn
  | _, .intRange first last step, hn =>
    ⟨Part.All.gather h first fun x => (hn x).1, Part.All.gather h last fun x => (hn x).2.1,
      Part.All.gather h step fun x => (hn x).2.2⟩
  | _, .floatRange first last step, hn =>
    ⟨Part.All.gather h first fun x => (hn x).1, Part.All.gather h last fun x => (hn x).2.1,
      Part.All.gather h step fun x => (hn x).2.2⟩

theorem Nodes.All.gather (h : ∀ i, (∀ x, p x i) → q i) : (ns : Nodes) → (∀ x, ns.All (p x)) →
    ns.All q
  | .nil, _ => trivial
  | .cons _ n ns, hn =>
    ⟨Node.All.gather h n fun x => (hn x).1, Nodes.All.gather h ns fun x => (hn x).2⟩

theorem Part.All.gather (h : ∀ i, (∀ x, p x i) → q i) : {family : Family} → (r : Part family) →
    (∀ x, r.All (p x)) → r.All q
  | _, .none, _ => trivial
  | _, .some n, hn => Node.All.gather h n hn

theorem Bindings.All.gather (h : ∀ i, (∀ x, p x i) → q i) : (bs : Bindings) →
    (∀ x, bs.All (p x)) → bs.All q
  | .nil, _ => trivial
  | .bind _ _ n rest, hn =>
    ⟨Node.All.gather h n fun x => (hn x).1, Bindings.All.gather h rest fun x => (hn x).2⟩
  | .bindRec _ n _ rest, hn =>
    ⟨h _ fun x => (hn x).1, Node.All.gather h n fun x => (hn x).2.1,
      Bindings.All.gather h rest fun x => (hn x).2.2⟩

end

end

variable {family : Family} {n : Node family} {p q : Item → Prop}

theorem Node.all_of_forall (h : ∀ i, q i) : n.All q :=
  Node.All.gather (p := fun (x : Empty) _ => x.elim) (fun i _ => h i) n fun x => x.elim

theorem Node.All.imp (h : ∀ i, p i → q i) (hn : n.All p) : n.All q :=
  Node.All.gather (p := fun (_ : Unit) => p) (fun i hi => h i (hi ())) n fun _ => hn

theorem Node.All.and (hp : n.All p) (hq : n.All q) : n.All fun i => p i ∧ q i :=
  Node.All.gather (p := fun (b : Bool) => if b then p else q)
    (fun _ h => ⟨h true, h false⟩) n fun b => by cases b <;> assumption

/-- What no item breaks holds of all items. -/
theorem Node.all_of_has {ι : Type} {p : ι → Item → Prop} {r : ι → Prop}
    (h : ∀ x, n.Has (p x) → r x) : n.All fun i => ∀ x, p x i → r x := by
  refine Node.All.gather (p := fun x i => p x i → r x) (fun _ hi => hi) n fun x => ?_
  by_cases hx : r x
  · exact Node.all_of_forall fun _ _ => hx
  · have none : n.All fun i => ¬ p x i := Classical.not_not.mp fun hhas => hx (h x hhas)
    exact none.imp fun i hi hp => absurd hp hi

/-! ## Items of accepted trees -/

/-- What stands in an accepted tree: well-typed constants, and declared targets of guest functions. -/
def Item.Accepted (code : Code) (good : Function → Prop) : Item → Prop
  | .constant v => v.WellTyped good
  | .definition target => code.Declares target ∧ ∃ layout, target.closure = some layout
  | .recursion => True

section

variable {code : Code} {good : Function → Prop} {layout : Layout}

mutual

/-- **The items of an accepted node are accepted.** -/
theorem Node.Accepted.items : {family : Family} → (n : Node family) →
    n.Accepted code good layout → n.All (Item.Accepted code good)
  | _, .bool _, _ | _, .int _, _ | _, .float _, _ | _, .read _ _, _ => trivial
  | _, .function _, h => Value.WellTyped.function h
  | _, .constant _, h => h.2
  | _, .define _ capture, h => ⟨h.2, capture.closure, (Build.define_eq_ok h.1).1⟩
  | _, .not a, h => Node.Accepted.items a h
  | _, .negateInt a, h => Node.Accepted.items a h
  | _, .negateFloat a, h => Node.Accepted.items a h
  | _, .logic _ a b, h => ⟨Node.Accepted.items a h.1, Node.Accepted.items b h.2⟩
  | _, .compareInt _ a b, h => ⟨Node.Accepted.items a h.1, Node.Accepted.items b h.2⟩
  | _, .compareFloat _ a b, h => ⟨Node.Accepted.items a h.1, Node.Accepted.items b h.2⟩
  | _, .arithInt _ a b, h => ⟨Node.Accepted.items a h.1, Node.Accepted.items b h.2⟩
  | _, .arithFloat _ a b, h => ⟨Node.Accepted.items a h.1, Node.Accepted.items b h.2⟩
  | _, .cond test a b, h =>
    ⟨Node.Accepted.items test h.2.1, Node.Accepted.items a h.2.2.1, Node.Accepted.items b h.2.2.2⟩
  | _, .block bindings body, h => ⟨Bindings.Accepted.items bindings h.1, Node.Accepted.items body h.2⟩
  | _, .call callee args _, h => ⟨Node.Accepted.items callee h.2.1, Nodes.Accepted.items args h.2.2⟩
  | _, .index seq i _, h => ⟨Node.Accepted.items seq h.2.1, Node.Accepted.items i h.2.2⟩
  | _, .slice seq slicer, h => ⟨Node.Accepted.items seq h.2.1, Node.Accepted.items slicer h.2.2⟩
  | _, .array _ items, h => Nodes.Accepted.items items h.2
  | _, .intRange first last step, h =>
    ⟨Part.Accepted.items first h.1, Part.Accepted.items last h.2.1, Part.Accepted.items step h.2.2⟩
  | _, .floatRange first last step, h =>
    ⟨Part.Accepted.items first h.1, Part.Accepted.items last h.2.1, Part.Accepted.items step h.2.2⟩

theorem Nodes.Accepted.items : (ns : Nodes) → ns.Accepted code good layout →
    ns.All (Item.Accepted code good)
  | .nil, _ => trivial
  | .cons _ n ns, h => ⟨Node.Accepted.items n h.1, Nodes.Accepted.items ns h.2⟩

theorem Part.Accepted.items : {family : Family} → (r : Part family) →
    r.Accepted code good layout → r.All (Item.Accepted code good)
  | _, .none, _ => trivial
  | _, .some n, h => Node.Accepted.items n h

theorem Bindings.Accepted.items : (bs : Bindings) → bs.Accepted code good layout →
    bs.All (Item.Accepted code good)
  | .nil, _ => trivial
  | .bind _ _ n rest, h => ⟨Node.Accepted.items n h.2.1, Bindings.Accepted.items rest h.2.2⟩
  | .bindRec _ n _ rest, h =>
    ⟨trivial, Node.Accepted.items n h.2.1, Bindings.Accepted.items rest h.2.2⟩

end

end

end TypedEval
