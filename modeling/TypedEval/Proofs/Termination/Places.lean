import Mathlib.Data.Fintype.Card
import Mathlib.Data.Fintype.Sum
import Mathlib.Logic.Relation
import TypedEval.Proofs.Node.Items
import TypedEval.Proofs.Typing.Admitted

/-!
# What a program reaches

Functions stand in two kinds of **places**: in the body of a guest function, as constants and as
targets of its definitions, and in the slots of a closure. A function in turn names the places of its
code and of its closure. A program **reaches** the places that its tree and its frame name, and from
there what is named on.

Without recursive bindings a place names only places that were made before it, so none is on a cycle.
Places are finitely many, and then what is named gets smaller: places that are reached, and on no
cycle, are accessible (`Code.acc_of_acyclic`).
-/

namespace TypedEval

/-- **A place where functions stand**: the code of a number, or the closure of a number. -/
inductive Place where
  | code (id : Nat)
  | closure (id : Nat)
  deriving DecidableEq

/-- A function names the places of its code and of its closure. -/
def Function.Names (f : Function) : Place → Prop
  | .code id => f.target.id = id
  | .closure id => f.closureId? = some id

/-- **A function stands in a value**, maybe as an element of arrays. -/
inductive Value.Contains (f : Function) : Value → Prop where
  | function : Contains f (.function f)
  | array {a : ArrayValue} {v : Value} (hv : v ∈ a.storage.references) (h : Contains f v) :
      Contains f (.array a)
  | slice {w : View} {v : Value} (hv : v ∈ w.array.storage.references) (h : Contains f v) :
      Contains f (.slice w)

/-- A function stands in a slot of a frame. -/
def Frame.Contains (f : Function) (frame : Frame) : Prop :=
  ∃ (i : Nat) (s : Slot) (v : Value), frame.slots[i]? = some s ∧ s.cell.value? = some v ∧
    v.Contains f

/-- What an item of a tree names: a constant what its functions name, a definition its code. -/
def Item.Names (p : Place) : Item → Prop
  | .constant v => ∃ f, v.Contains f ∧ f.Names p
  | .definition target => p = .code target.id
  | .recursion => False

/-- **One place names another.** -/
inductive Code.Mentions (code : Code) (s : Store) : Place → Place → Prop where
  | body {id : Nat} {body : Body} {p : Place} (hbody : code.routines[id]? = some (.user body))
      (h : body.node.node.Has (Item.Names p)) : Mentions code s (.code id) p
  | closure {id : Nat} {frame : Frame} {f : Function} {p : Place}
      (hframe : s.closures[id]? = some frame) (hf : frame.Contains f) (h : f.Names p) :
      Mentions code s (.closure id) p

/-- **The places that a program reaches** from its tree and the frame it starts in. -/
inductive Code.Reaches (code : Code) (n : AnyNode) (a : Activation) : Place → Prop where
  | tree {p : Place} (h : n.node.Has (Item.Names p)) : Reaches code n a p
  | frame {f : Function} {p : Place} (hf : a.frame.Contains f) (h : f.Names p) : Reaches code n a p
  | onward {p q : Place} (hp : Reaches code n a p) (h : code.Mentions a.store p q) :
      Reaches code n a q

/-! ## From contents to properties -/

section

variable {good better : Function → Prop}

theorem Value.WellTyped.of_contains {v : Value} (hv : v.WellTyped good)
    (h : ∀ f, v.Contains f → good f → better f) : v.WellTyped better := by
  induction hv with
  | bool b => exact .bool b
  | int n => exact .int n
  | float x => exact .float x
  | range r => exact .range r
  | function hf => exact .function (h _ .function hf)
  | array hc ht _ ih => exact .array hc ht fun v hv => ih v hv fun f hf => h f (.array hv hf)
  | slice hc ht _ ih => exact .slice hc ht fun v hv => ih v hv fun f hf => h f (.slice hv hf)

theorem Frame.Of.of_contains {frame : Frame} (hframe : frame.Of good)
    (h : ∀ f, frame.Contains f → good f → better f) : frame.Of better := by
  intro i s hs
  have hcell := hframe i s hs
  cases hc : s.cell with
  | reference v =>
    rw [hc] at hcell
    refine ⟨hcell.1, hcell.2.ty, hcell.2.wellTyped.of_contains fun f hf => h f ?_⟩
    exact ⟨i, s, v, hs, by rw [hc]; rfl, hf⟩
  | _ => rw [hc] at hcell; exact hcell

end

/-! ## Acyclic places -/

/-- A place that is there. -/
def Place.Within (code : Code) (s : Store) : Place → Prop
  | .code id => id < code.routines.size
  | .closure id => id < s.closures.size

section

variable {code : Code} {s : Store}

theorem Code.Mentions.within {p q : Place} (h : code.Mentions s p q) : p.Within code s := by
  cases h with
  | body hbody _ => exact (Array.getElem?_eq_some_iff.mp hbody).1
  | closure hframe _ _ => exact (Array.getElem?_eq_some_iff.mp hframe).1

/-- There are finitely many places. -/
theorem Place.finite_within (code : Code) (s : Store) : Finite {p : Place // p.Within code s} := by
  let place : Fin code.routines.size ⊕ Fin s.closures.size → {p : Place // p.Within code s}
    | .inl i => ⟨.code i, i.isLt⟩
    | .inr i => ⟨.closure i, i.isLt⟩
  refine Finite.of_surjective place ?_
  rintro ⟨p, hp⟩
  cases p with
  | code id => exact ⟨.inl ⟨id, hp⟩, rfl⟩
  | closure id => exact ⟨.inr ⟨id, hp⟩, rfl⟩

end

/-- Where every name is of a lower rank, there is no cycle. -/
theorem Code.acyclic_of_rank {code : Code} {s : Store} (rank : Place → Nat)
    (lower : ∀ p q, code.Mentions s p q → rank q < rank p) (p : Place) :
    ¬ Relation.TransGen (code.Mentions s) p p := by
  have below : ∀ q, Relation.TransGen (code.Mentions s) p q → rank q < rank p := by
    intro q hq
    induction hq with
    | single h => exact lower _ _ h
    | tail _ h ih => exact (lower _ _ h).trans ih
  exact fun h => Nat.lt_irrefl _ (below p h)

/-- **What is reached and on no cycle is accessible**: nothing is named on and on from there. -/
theorem Code.acc_of_acyclic {code : Code} {n : AnyNode} {a : Activation}
    (acyclic : ∀ p, code.Reaches n a p → ¬ Relation.TransGen (code.Mentions a.store) p p)
    {p : Place} (hp : code.Reaches n a p) : Acc (fun q p => code.Mentions a.store p q) p := by
  have absent : ∀ p : Place, ¬ p.Within code a.store →
      Acc (fun q p => code.Mentions a.store p q) p :=
    fun p hp => .intro p fun q hq => absurd hq.within hp
  -- Among the places that are there and reached, "is named on from" is a strict order.
  let Present := {p : Place // p.Within code a.store ∧ code.Reaches n a p}
  have := Place.finite_within code a.store
  have : Finite Present :=
    Finite.of_injective (fun p : Present => (⟨p.1, p.2.1⟩ : {p : Place // p.Within code a.store}))
      fun p q h => Subtype.ext (congrArg (fun r => r.1) h)
  let below (p q : Present) : Prop := Relation.TransGen (code.Mentions a.store) q.1 p.1
  have : IsTrans Present below := ⟨fun _ _ _ hpq hqr => hqr.trans hpq⟩
  have : Std.Irrefl below := ⟨fun p hp => acyclic p.1 p.2.2 hp⟩
  have wellFounded : WellFounded below := Finite.wellFounded_of_trans_of_irrefl below
  have present : ∀ p : Present, Acc (fun q p => code.Mentions a.store p q) p.1 := by
    intro p
    induction p using wellFounded.induction with
    | _ p ih =>
      refine .intro _ fun q hq => ?_
      by_cases hw : q.Within code a.store
      · exact ih ⟨q, hw, p.2.2.onward hq⟩ (.single hq)
      · exact absent q hw
  by_cases hw : p.Within code a.store
  · exact present ⟨p, hw, hp⟩
  · exact absent p hw

end TypedEval
