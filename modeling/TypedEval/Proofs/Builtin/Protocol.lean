import Mathlib.Data.List.Forall2
import TypedEval.Proofs.Value.Sequences

/-!
# The protocol of host functions

A script of the host reaches guest code only by asking for calls. `Script.Abides` is a protocol for
it: the calls that it asks for are allowed ones, as long as every result that it gets is a possible
one, and what it ends in has a property. A script that abides does so over every way of calling.

A host function abides by a signature, over some admitted functions, when from arguments of the
parameter types it asks admitted functions for calls with arguments of their types, gets results of
theirs, and ends in a value of its own result type. Every builtin of the standard library does
(`Builtin.standard_abides`), whichever functions are admitted.
-/

namespace TypedEval

/-! ## Scripts -/

/-- **A script abides by a protocol**: it asks for calls that are allowed, if it gets results that are
possible, and ends in what it should. -/
inductive Script.Abides {α : Type} (asks : Function → List Value → Prop)
    (gets : Function → Value → Prop) (p : α → Prop) : Script α → Prop where
  | done {a : α} (h : p a) : Abides asks gets p (.done a)
  | fail (f : Fault) : Abides asks gets p (.fail f)
  | newStorage {next : Nat → Script α} (h : ∀ id, Abides asks gets p (next id)) :
      Abides asks gets p (.newStorage next)
  | resolve (f : Function) {next : Script α} (h : Abides asks gets p next) :
      Abides asks gets p (.resolve f next)
  | call {f : Function} {args : List Value} {next : Value → Script α} (asked : asks f args)
      (h : ∀ v, gets f v → Abides asks gets p (next v)) : Abides asks gets p (.call f args next)

namespace Script.Abides

variable {α β : Type} {asks : Function → List Value → Prop} {gets : Function → Value → Prop}
  {p : α → Prop} {q : β → Prop}

/-- More calls may be allowed. -/
theorem imp {more : Function → List Value → Prop} (h : ∀ f args, asks f args → more f args)
    {m : Script α} (hm : m.Abides asks gets p) : m.Abides more gets p := by
  induction hm with
  | done ha => exact .done ha
  | fail f => exact .fail f
  | newStorage _ ih => exact .newStorage ih
  | resolve f _ ih => exact .resolve f ih
  | call asked _ ih => exact .call (h _ _ asked) ih

theorem bind {m : Script α} {k : α → Script β} (h : m.Abides asks gets p)
    (hk : ∀ a, p a → (k a).Abides asks gets q) : (m >>= k).Abides asks gets q := by
  show (m.bind k).Abides asks gets q
  induction h with
  | done ha => exact hk _ ha
  | fail f => exact .fail f
  | newStorage _ ih => exact .newStorage ih
  | resolve f _ ih => exact .resolve f ih
  | call asked _ ih => exact .call asked ih

theorem check {x : Except Fault α} (h : ∀ a, x = .ok a → p a) :
    (liftM x : Script α).Abides asks gets p := by
  cases x with
  | ok a => exact .done (h a rfl)
  | error f => exact .fail _

theorem callSite {f : Function} {k : Unit → Script β} (h : (k ()).Abides asks gets q) :
    (Script.callSite f >>= k).Abides asks gets q :=
  .resolve f h

theorem bind_check {x : Except Fault α} {k : α → Script β}
    (h : ∀ a, x = .ok a → (k a).Abides asks gets q) :
    (liftM x >>= k : Script β).Abides asks gets q := by
  cases x with
  | ok a => exact h a rfl
  | error f => exact .fail _

theorem bind_defect {x : Except Defect α} {k : α → Script β}
    (h : ∀ a, x = .ok a → (k a).Abides asks gets q) :
    (liftM x >>= k : Script β).Abides asks gets q := by
  cases x with
  | ok a => exact h a rfl
  | error f => exact .fail _

theorem bind_cause {x : Except Cause α} {k : α → Script β}
    (h : ∀ a, x = .ok a → (k a).Abides asks gets q) :
    (liftM x >>= k : Script β).Abides asks gets q := by
  cases x with
  | ok a => exact h a rfl
  | error f => exact .fail _

theorem bind_call {f : Function} {args : List Value} {k : Value → Script β} (asked : asks f args)
    (hk : ∀ v, gets f v → (k v).Abides asks gets q) :
    (callFunction f args >>= k).Abides asks gets q :=
  .call asked hk

end Script.Abides

/-! ## Values of types, position by position -/

section

variable {good : Function → Prop}

theorem types_of_forall₂ {tys : List Ty} {args : List Value}
    (h : List.Forall₂ (Value.Of good) tys args) : args.map Value.ty = tys := by
  induction h with
  | nil => rfl
  | cons hv _ ih => rw [List.map_cons, hv.ty, ih]

theorem wellTyped_of_forall₂ {tys : List Ty} {args : List Value}
    (h : List.Forall₂ (Value.Of good) tys args) : ∀ v ∈ args, v.WellTyped good := by
  induction h with
  | nil => exact fun _ hv => (nomatch hv)
  | cons hv _ ih => exact List.forall_mem_cons.mpr ⟨hv.wellTyped, ih⟩

theorem forall₂_of_types {tys : List Ty} {args : List Value} (htypes : args.map Value.ty = tys)
    (hargs : ∀ v ∈ args, v.WellTyped good) : List.Forall₂ (Value.Of good) tys args := by
  subst htypes
  induction args with
  | nil => exact .nil
  | cons v vs ih =>
    obtain ⟨hv, hvs⟩ := List.forall_mem_cons.mp hargs
    exact .cons ⟨rfl, hv⟩ (ih hvs)

end

/-! ## Host functions -/

/-- A call that fits the signature of an admitted function. -/
structure Function.Takes (good : Function → Prop) (f : Function) (args : List Value) : Prop where
  admitted : good f
  args : List.Forall₂ (Value.Of good) f.target.signature.params args

/-- A result that fits the signature of a function. -/
def Function.Returns (good : Function → Prop) (f : Function) (v : Value) : Prop :=
  v.Of good f.target.signature.result

/-- **A host function abides by a signature**, over the functions that are admitted. -/
def Native.Abides (good : Function → Prop) (signature : Signature) (script : Native) : Prop :=
  ∀ args, List.Forall₂ (Value.Of good) signature.params args →
    (script args).Abides (Function.Takes good) (Function.Returns good)
      (Value.Of good signature.result)

/-- A value of a function type is an admitted function of that signature. -/
theorem Value.Of.function {good : Function → Prop} {v : Value} {params : List Ty} {result : Ty}
    (hv : v.Of good (.function params result)) :
    ∃ f, v = .function f ∧ f.target.signature = ⟨params, result⟩ ∧ good f := by
  obtain ⟨hty, hw⟩ := hv
  obtain ⟨f, rfl, hsignature⟩ := Value.eq_function_of_ty hty
  cases hw with
  | function hf => exact ⟨f, rfl, hsignature, hf⟩

namespace Builtin

variable {good : Function → Prop}

/-! ## Numeric builtins -/

/-- The numeric builtins ask for nothing. -/
theorem math_abides [Allocator] {b : Builtin} (hb : b ∈ math) : b.script.Abides good b.signature := by
  simp only [math, List.mem_cons, List.not_mem_nil, or_false] at hb
  intro args _
  obtain rfl | rfl | rfl | rfl | rfl | rfl | rfl | rfl | rfl := hb
  · refine .bind_check fun _ _ => .bind_defect fun _ _ => ?_
    split
    · exact .fail _
    · exact .done ⟨rfl, .float _⟩
  · refine .bind_check fun _ _ => .bind_defect fun _ _ => ?_
    exact .bind_cause fun _ _ => .done ⟨rfl, .int _⟩
  · exact .bind_check fun _ _ => .bind_defect fun _ _ => .done ⟨rfl, .float _⟩
  · exact .bind_check fun _ _ => .bind_defect fun _ _ => .done ⟨rfl, .int _⟩
  · exact .bind_check fun _ _ => .bind_defect fun _ _ => .done ⟨rfl, .float _⟩
  · exact .bind_check fun _ _ => .bind_defect fun _ _ => .done ⟨rfl, .bool _⟩
  · refine .bind_check fun _ _ => .bind_defect fun _ _ => ?_
    split
    · exact .fail _
    · split
      · exact .fail _
      · exact .newStorage fun _ => .done ⟨rfl, .array rfl nofun nofun⟩
  · exact .bind_check fun _ _ => .bind_defect fun _ _ => .bind_check fun _ _ =>
      .bind_defect fun _ _ => .bind_cause fun _ _ => .done ⟨rfl, .range _⟩
  · exact .bind_check fun _ _ => .bind_defect fun _ _ => .bind_check fun _ _ =>
      .bind_defect fun _ _ => .bind_check fun _ _ => .bind_defect fun _ _ =>
        .bind_cause fun _ _ => .done ⟨rfl, .range _⟩

/-! ## Sequence builtins -/

variable {asks : Function → List Value → Prop} {gets : Function → Value → Prop}
  {sequence element : Ty}

theorem finish_abides {b : Builder} (hb : b.Of good element) :
    (Script.finish b).Abides asks gets (Value.Of good (.array element)) :=
  .newStorage fun id => .done (hb.finish id)

theorem len_abides : len.Abides good ⟨[sequence], .int⟩ := by
  intro args _
  refine .bind_check fun v _ => .bind (p := fun _ => True) ?_ fun n _ => ?_
  · split
    · next r _ =>
      cases hr : r.count with
      | ok n => exact .done trivial
      | error e => exact .fail _
    · exact .bind_defect fun _ _ => .done trivial
  · split
    · exact .done ⟨rfl, .int _⟩
    · exact .fail _

theorem toArray_abides [Allocator] (hsequence : sequence.element? = some element) :
    toArray.Abides good ⟨[sequence], .array element⟩ := by
  intro args hargs
  obtain _ | ⟨hv, _ | _⟩ := hargs
  obtain ⟨helement, helements⟩ := hv.elements hsequence
  refine .bind_check fun v hargument => ?_
  cases hargument
  split
  · cases helement
    exact .done ⟨rfl, hv.wellTyped⟩
  · next w =>
    cases helement
    have hstorage : w.array.storage.Of good w.element := helements
    refine .bind (p := fun a => (Value.array a).Of good (.array w.element)) ?_ fun a ha => .done ha
    unfold viewToArray
    split
    · exact .done (hstorage.array w.array.id)
    · exact .newStorage fun id => .check fun _ ha => (ViewOf.copy_of hstorage id).ok ha
  · refine .bind_defect fun e he => .bind_check fun it hit => ?_
    rw [helement] at he
    cases he
    have hit := helements.ok hit
    refine .bind (p := fun b => b.Of good element) ?_ fun b hb => finish_abides hb
    unfold collect
    split
    · exact .fail _
    · next b hb =>
      cases Builder.withCapacity_eq_ok hb
      exact .check fun _ hc => (hit.fill .new it.remaining).ok hc

/-! ## Builtins that call back -/

section Callbacks

variable {f : Function} {it : Elements} {b : Builder} {result : Ty}

theorem mapInto_abides (hf : good f) (hsignature : f.target.signature = ⟨[element], result⟩)
    (limit : Nat) (hit : it.Of good element) (hb : b.Of good result) :
    (mapInto f limit it b).Abides (Function.Takes good) (Function.Returns good)
      fun b => b.Of good result := by
  induction limit generalizing it b with
  | zero => exact .done hb
  | succ limit ih =>
    unfold mapInto
    split
    · exact .done hb
    · next v rest hnext =>
      obtain ⟨hv, hrest⟩ := hit.next hnext
      refine .bind_check fun x hx => ?_
      have hx := hv.ok hx
      refine .bind_call ⟨hf, by rw [hsignature]; exact .cons hx .nil⟩ fun r hr => ?_
      rw [Function.Returns, hsignature] at hr
      obtain ⟨c, hc, hof⟩ := hb.push hr
      refine .bind_check fun d hd => ?_
      rw [hc] at hd
      cases hd
      exact ih hrest hof

theorem filterInto_abides (hf : good f) (hsignature : f.target.signature = ⟨[element], .bool⟩)
    (limit : Nat) (hit : it.Of good element) (hb : b.Of good element) :
    (filterInto f limit it b).Abides (Function.Takes good) (Function.Returns good)
      fun b => b.Of good element := by
  induction limit generalizing it b with
  | zero => exact .done hb
  | succ limit ih =>
    unfold filterInto
    split
    · exact .done hb
    · next v rest hnext =>
      obtain ⟨hv, hrest⟩ := hit.next hnext
      refine .bind_check fun x hx => ?_
      have hx := hv.ok hx
      refine .bind_call ⟨hf, by rw [hsignature]; exact .cons hx .nil⟩ fun r _ => ?_
      refine .bind_defect fun keep _ => ?_
      split
      · obtain ⟨c, hc, hof⟩ := hb.push hx
        refine .bind_check fun d hd => ?_
        rw [hc] at hd
        cases hd
        exact ih hrest hof
      · exact ih hrest hb

theorem foldOver_abides (hf : good f)
    (hsignature : f.target.signature = ⟨[result, element], result⟩) (limit : Nat)
    (hit : it.Of good element) {acc : Value} (hacc : acc.Of good result) :
    (foldOver f limit it acc).Abides (Function.Takes good) (Function.Returns good)
      (Value.Of good result) := by
  induction limit generalizing it acc with
  | zero => exact .done hacc
  | succ limit ih =>
    unfold foldOver
    split
    · exact .done hacc
    · next v rest hnext =>
      obtain ⟨hv, hrest⟩ := hit.next hnext
      refine .bind_check fun x hx => ?_
      have hx := hv.ok hx
      refine .bind_call ⟨hf, by rw [hsignature]; exact .cons hacc (.cons hx .nil)⟩ fun r hr => ?_
      rw [Function.Returns, hsignature] at hr
      exact ih hrest hr

theorem map_abides [Allocator] (hsequence : sequence.element? = some element) :
    map.Abides good ⟨[sequence, .function [element] result], .array result⟩ := by
  intro args hargs
  obtain _ | ⟨hv, _ | ⟨hw, _ | _⟩⟩ := hargs
  obtain ⟨f, rfl, hsignature, hf⟩ := hw.function
  obtain ⟨-, helements⟩ := hv.elements hsequence
  refine .bind_check fun w hargument => ?_
  cases hargument
  refine .bind_defect fun g hg => .callSite (.bind_check fun v hargument => .bind_check fun it hit => ?_)
  cases hg
  cases hargument
  have hit := helements.ok hit
  rw [hsignature]
  split
  · exact .fail _
  · next b hb =>
    cases Builder.withCapacity_eq_ok hb
    exact .bind (mapInto_abides hf hsignature it.remaining hit .new) fun c hc => finish_abides hc

theorem filter_abides (hsequence : sequence.element? = some element) :
    filter.Abides good ⟨[sequence, .function [element] .bool], .array element⟩ := by
  intro args hargs
  obtain _ | ⟨hv, _ | ⟨hw, _ | _⟩⟩ := hargs
  obtain ⟨f, rfl, hsignature, hf⟩ := hw.function
  obtain ⟨helement, helements⟩ := hv.elements hsequence
  refine .bind_check fun w hargument => ?_
  cases hargument
  refine .bind_defect fun g hg => .callSite (.bind_check fun v hargument => ?_)
  cases hg
  cases hargument
  refine .bind_defect fun e he => .bind_check fun it hit => ?_
  rw [helement] at he
  cases he
  have hit := helements.ok hit
  exact .bind (filterInto_abides hf hsignature it.remaining hit .new) fun c hc => finish_abides hc

theorem fold_abides (hsequence : sequence.element? = some element) :
    fold.Abides good ⟨[sequence, result, .function [result, element] result], result⟩ := by
  intro args hargs
  obtain _ | ⟨hv, _ | ⟨hacc, _ | ⟨hw, _ | _⟩⟩⟩ := hargs
  obtain ⟨f, rfl, hsignature, hf⟩ := hw.function
  obtain ⟨-, helements⟩ := hv.elements hsequence
  refine .bind_check fun w hargument => ?_
  cases hargument
  refine .bind_defect fun g hg => .callSite (.bind_check fun acc hargument => ?_)
  cases hg
  cases hargument
  refine .bind_check fun v hargument => .bind_check fun it hit => ?_
  cases hargument
  exact foldOver_abides hf hsignature it.remaining (helements.ok hit) hacc

theorem reduce_abides (hsequence : sequence.element? = some element) :
    reduce.Abides good ⟨[sequence, .function [element, element] element], element⟩ := by
  intro args hargs
  obtain _ | ⟨hv, _ | ⟨hw, _ | _⟩⟩ := hargs
  obtain ⟨f, rfl, hsignature, hf⟩ := hw.function
  obtain ⟨-, helements⟩ := hv.elements hsequence
  refine .bind_check fun w hargument => ?_
  cases hargument
  refine .bind_defect fun g hg => .callSite (.bind_check fun v hargument => .bind_check fun it hit => ?_)
  cases hg
  cases hargument
  have hit := helements.ok hit
  split
  · exact .fail _
  · next first rest hnext =>
    obtain ⟨hfirst, hrest⟩ := hit.next hnext
    exact .bind_check fun x hx =>
      foldOver_abides hf hsignature rest.remaining hrest (hfirst.ok hx)

end Callbacks

/-! ## The standard library -/

/-- **Every builtin of the standard library abides by its signature**, whichever functions are
admitted. -/
theorem standard_abides {b : Builtin} (hb : b.IsStandard) :
    b.script.Abides good b.signature := by
  obtain ⟨_, hb⟩ := hb
  obtain hb | hb := List.mem_append.mp hb
  · exact math_abides hb
  · obtain ⟨p, hp, hb⟩ := List.mem_flatMap.mp hb
    have hsequence := element?_of_mem_sequences hp
    simp only [onSequence, List.mem_append, List.mem_cons, List.not_mem_nil, or_false,
      List.mem_flatMap] at hb
    obtain (rfl | rfl | rfl | rfl) | ⟨result, -, rfl | rfl⟩ := hb
    · exact len_abides
    · exact toArray_abides hsequence
    · exact filter_abides hsequence
    · exact reduce_abides hsequence
    · exact map_abides hsequence
    · exact fold_abides hsequence

end Builtin

end TypedEval
