import TypedEval.Proofs.Typing.Closures
import TypedEval.Proofs.Typing.Sequences

/-!
# Typed builtins

A host function is typed at a signature when, over a typed way of calling, arguments that fit the
parameters give a value that fits the result, or an admissible halt. Every builtin of the standard
library is (`Builtin.standard_typed`). The loops of `map`, `filter` and `fold` call back into the
guest, which may add closures between two elements; the invariant is what was gathered so far, typed
at the layouts of the moment.
-/

namespace TypedEval

/-- **A way of calling is typed**: functions that fit, given arguments that fit, give results that
fit. -/
def Caller.Typed (code : Code) (base : List Layout) (call : Caller) : Prop :=
  ∀ (f : Function) (args : List Value) (s : Store),
    (Discipline.typedStore code base).holds s → f.Typed code s.layouts none →
    FitsAll code s.layouts args f.target.signature.params →
    (call f args).Obeys (.typedStore code base) s
      fun v t => v.Fits code t.layouts f.target.signature.result

/-- **A host function is typed** at a signature. -/
def Native.Typed (code : Code) (base : List Layout) (call : Caller) (signature : Signature)
    (script : Native) : Prop :=
  ∀ (args : List Value) (s : Store), (Discipline.typedStore code base).holds s →
    FitsAll code s.layouts args signature.params →
    ((script args).run call).Obeys (.typedStore code base) s
      fun v t => v.Fits code t.layouts signature.result

/-! ## Arguments -/

namespace FitsAll

variable {code : Code} {ls : List Layout} {args : List Value} {t : Ty} {ts : List Ty}

theorem nil : FitsAll code ls [] [] := ⟨rfl, fun _ h => (nomatch h)⟩

theorem cons {v : Value} (hv : v.Fits code ls t) (hs : FitsAll code ls args ts) :
    FitsAll code ls (v :: args) (t :: ts) := by
  refine ⟨by rw [List.map_cons, hv.ty, hs.types], fun w hw => ?_⟩
  obtain rfl | hw := List.mem_cons.mp hw
  · exact hv.wellTyped
  · exact hs.wellTyped w hw

theorem eq_nil (h : FitsAll code ls args []) : args = [] := List.map_eq_nil_iff.mp h.types

theorem uncons (h : FitsAll code ls args (t :: ts)) :
    ∃ v vs, args = v :: vs ∧ v.Fits code ls t ∧ FitsAll code ls vs ts := by
  cases args with
  | nil => cases h.types
  | cons v vs =>
    obtain ⟨hty, hrest⟩ := List.cons.inj h.types
    exact ⟨v, vs, rfl, ⟨hty, h.wellTyped v List.mem_cons_self⟩, hrest,
      fun w hw => h.wellTyped w (List.mem_cons_of_mem v hw)⟩

theorem one (h : FitsAll code ls args [t]) : ∃ v, args = [v] ∧ v.Fits code ls t := by
  obtain ⟨v, vs, rfl, hv, hs⟩ := h.uncons
  cases hs.eq_nil
  exact ⟨v, rfl, hv⟩

theorem two {u : Ty} (h : FitsAll code ls args [t, u]) :
    ∃ v w, args = [v, w] ∧ v.Fits code ls t ∧ w.Fits code ls u := by
  obtain ⟨v, vs, rfl, hv, hs⟩ := h.uncons
  obtain ⟨w, rfl, hw⟩ := hs.one
  exact ⟨v, w, rfl, hv, hw⟩

theorem three {u r : Ty} (h : FitsAll code ls args [t, u, r]) :
    ∃ v w x, args = [v, w, x] ∧ v.Fits code ls t ∧ w.Fits code ls u ∧ x.Fits code ls r := by
  obtain ⟨v, vs, rfl, hv, hs⟩ := h.uncons
  obtain ⟨w, x, rfl, hw, hx⟩ := hs.two
  exact ⟨v, w, x, rfl, hv, hw, hx⟩

end FitsAll

/-- A function argument is a function of that signature. -/
theorem Value.Fits.function {code : Code} {ls : List Layout} {v : Value} {params : List Ty}
    {result : Ty} (hv : v.Fits code ls (.function params result)) :
    ∃ f, v = .function f ∧ f.target.signature = ⟨params, result⟩ ∧ f.Typed code ls none := by
  obtain ⟨hty, hw⟩ := hv
  obtain ⟨f, rfl, hsignature⟩ := Value.eq_function_of_ty hty
  cases hw with
  | function hf => exact ⟨f, rfl, hsignature, hf⟩

/-! ## Scripts -/

theorem argument_zero (v : Value) (vs : List Value) : argument (v :: vs) 0 = .ok v := rfl

theorem argument_one (v w : Value) (vs : List Value) : argument (v :: w :: vs) 1 = .ok w := rfl

theorem argument_two (v w x : Value) (vs : List Value) :
    argument (v :: w :: x :: vs) 2 = .ok x := rfl

section

variable {code : Code} {base : List Layout} {c : Caller} {s : Store}

namespace Script

variable {α β : Type} {p : α → Store → Prop} {q : β → Store → Prop}

/-- The rest of a script starts where its first part ended. -/
theorem run_bind_typed {m : Script α} {k : α → Script β}
    (h : (m.run c).Obeys (.typedStore code base) s p)
    (hk : ∀ a t, (Discipline.typedStore code base).holds t → s.layouts <+: t.layouts → p a t →
      ((k a).run c).Obeys (.typedStore code base) t q) :
    ((m >>= k).run c).Obeys (.typedStore code base) s q := by
  rw [run_bind]
  exact h.bind hk

theorem run_check_typed {x : Except Fault α} (hs : (Discipline.typedStore code base).holds s)
    (h : Gives x fun a => p a s) :
    ((liftM x : Script α).run c).Obeys (.typedStore code base) s p := by
  cases x with
  | ok a => exact .pure hs h
  | error f => exact .fault hs h

/-- A check that passes goes on with its result. -/
theorem run_ok_typed {x : Except Fault α} {a : α} {k : α → Script β} (h : x = .ok a)
    (hk : ((k a).run c).Obeys (.typedStore code base) s q) :
    ((liftM x >>= k : Script β).run c).Obeys (.typedStore code base) s q := by
  subst h
  exact hk

theorem run_defect_ok_typed {x : Except Defect α} {a : α} {k : α → Script β} (h : x = .ok a)
    (hk : ((k a).run c).Obeys (.typedStore code base) s q) :
    ((liftM x >>= k : Script β).run c).Obeys (.typedStore code base) s q := by
  subst h
  exact hk

theorem run_cause_typed {x : Except Cause α} (hs : (Discipline.typedStore code base).holds s)
    (h : ∀ a, x = .ok a → p a s) :
    ((liftM x : Script α).run c).Obeys (.typedStore code base) s p := by
  cases x with
  | ok a => exact .pure hs (h a rfl)
  | error e => exact .fault hs trivial

theorem run_finish_typed {b : Builder} {element : Ty}
    (hs : (Discipline.typedStore code base).holds s) (hb : b.Typed code s.layouts element) :
    ((finish b).run c).Obeys (.typedStore code base) s
      fun v t => v.Fits code t.layouts (.array element) :=
  .bind (newStorage_typed hs) fun id _ ht grown _ => .pure ht ((hb.mono grown).finish id)

/-- The closure of a typed function is there. -/
theorem run_callSite_typed {f : Function} {k : Unit → Script β}
    (hf : f.Typed code s.layouts none)
    (hk : ((k ()).run c).Obeys (.typedStore code base) s q) :
    ((callSite f >>= k).run c).Obeys (.typedStore code base) s q := by
  obtain ⟨closure, hclosure⟩ := hf.laidOut.closureIn
  have same : (callSite f >>= k).run c s = (k ()).run c s := run_resolve_ok c hclosure
  exact .of_rest same List.prefix_rfl hk

/-- Calling a function of a signature, with arguments that fit it. -/
theorem run_call_typed (hcall : c.Typed code base) {f : Function} {args : List Value}
    {params : List Ty} {result : Ty} (hs : (Discipline.typedStore code base).holds s)
    (hf : f.Typed code s.layouts none) (hsignature : f.target.signature = ⟨params, result⟩)
    (hargs : FitsAll code s.layouts args params) :
    ((callFunction f args).run c).Obeys (.typedStore code base) s
      fun v t => v.Fits code t.layouts result := by
  have called := hcall f args s hs hf (by rw [hsignature]; exact hargs)
  rw [hsignature] at called
  exact .bind called fun v t ht _ hv => .pure ht hv

end Script

namespace Builtin

/-! ## Numeric builtins -/

theorem sqrt_typed : Native.Typed code base c ⟨[.float], .float⟩ sqrt := by
  intro args s hs hargs
  obtain ⟨v, rfl, hv⟩ := hargs.one
  obtain ⟨x, rfl⟩ := Value.eq_float_of_ty hv.ty
  unfold sqrt
  refine Script.run_ok_typed (argument_zero _ _) (Script.run_defect_ok_typed rfl ?_)
  split
  · exact .fault hs trivial
  · exact .pure hs ⟨rfl, .float _⟩

theorem absInt_typed : Native.Typed code base c ⟨[.int], .int⟩ absInt := by
  intro args s hs hargs
  obtain ⟨v, rfl, hv⟩ := hargs.one
  obtain ⟨n, rfl⟩ := Value.eq_int_of_ty hv.ty
  unfold absInt
  refine Script.run_ok_typed (argument_zero _ _) (Script.run_defect_ok_typed rfl ?_)
  exact Script.run_bind_typed (p := fun _ _ => True)
    (Script.run_cause_typed hs fun _ _ => trivial)
    fun m t ht _ _ => .pure ht ⟨rfl, .int m⟩

theorem absFloat_typed : Native.Typed code base c ⟨[.float], .float⟩ absFloat := by
  intro args s hs hargs
  obtain ⟨v, rfl, hv⟩ := hargs.one
  obtain ⟨x, rfl⟩ := Value.eq_float_of_ty hv.ty
  exact .pure hs ⟨rfl, .float _⟩

theorem signInt_typed : Native.Typed code base c ⟨[.int], .int⟩ signInt := by
  intro args s hs hargs
  obtain ⟨v, rfl, hv⟩ := hargs.one
  obtain ⟨n, rfl⟩ := Value.eq_int_of_ty hv.ty
  exact .pure hs ⟨rfl, .int _⟩

theorem signFloat_typed : Native.Typed code base c ⟨[.float], .float⟩ signFloat := by
  intro args s hs hargs
  obtain ⟨v, rfl, hv⟩ := hargs.one
  obtain ⟨x, rfl⟩ := Value.eq_float_of_ty hv.ty
  exact .pure hs ⟨rfl, .float _⟩

theorem positive_typed : Native.Typed code base c ⟨[.float], .bool⟩ positive := by
  intro args s hs hargs
  obtain ⟨v, rfl, hv⟩ := hargs.one
  obtain ⟨x, rfl⟩ := Value.eq_float_of_ty hv.ty
  exact .pure hs ⟨rfl, .bool _⟩

theorem zeros_typed [Allocator] : Native.Typed code base c ⟨[.int], .array .float⟩ zeros := by
  intro args s hs hargs
  obtain ⟨v, rfl, hv⟩ := hargs.one
  obtain ⟨n, rfl⟩ := Value.eq_int_of_ty hv.ty
  unfold zeros
  refine Script.run_ok_typed (argument_zero _ _) (Script.run_defect_ok_typed rfl ?_)
  split
  · exact .fault hs trivial
  · split
    · exact .fault hs trivial
    · exact Script.run_finish_typed hs ⟨rfl, rfl, fun _ h => (nomatch h)⟩

theorem range_typed : Native.Typed code base c ⟨[.int, .int], .range .int⟩ range := by
  intro args s hs hargs
  obtain ⟨v, w, rfl, hv, hw⟩ := hargs.two
  obtain ⟨first, rfl⟩ := Value.eq_int_of_ty hv.ty
  obtain ⟨last, rfl⟩ := Value.eq_int_of_ty hw.ty
  unfold range
  refine Script.run_ok_typed (argument_zero _ _) (Script.run_defect_ok_typed rfl ?_)
  refine Script.run_ok_typed (argument_one _ _ _) (Script.run_defect_ok_typed rfl ?_)
  exact Script.run_bind_typed (p := fun _ _ => True)
    (Script.run_cause_typed hs fun _ _ => trivial)
    fun r t ht _ _ => .pure ht ⟨rfl, .range _⟩

theorem steppedRange_typed :
    Native.Typed code base c ⟨[.int, .int, .int], .range .int⟩ steppedRange := by
  intro args s hs hargs
  obtain ⟨v, w, x, rfl, hv, hw, hx⟩ := hargs.three
  obtain ⟨first, rfl⟩ := Value.eq_int_of_ty hv.ty
  obtain ⟨last, rfl⟩ := Value.eq_int_of_ty hw.ty
  obtain ⟨step, rfl⟩ := Value.eq_int_of_ty hx.ty
  unfold steppedRange
  refine Script.run_ok_typed (argument_zero _ _) (Script.run_defect_ok_typed rfl ?_)
  refine Script.run_ok_typed (argument_one _ _ _) (Script.run_defect_ok_typed rfl ?_)
  refine Script.run_ok_typed (argument_two _ _ _ _) (Script.run_defect_ok_typed rfl ?_)
  exact Script.run_bind_typed (p := fun _ _ => True)
    (Script.run_cause_typed hs fun _ _ => trivial)
    fun r t ht _ _ => .pure ht ⟨rfl, .range _⟩

theorem math_typed [Allocator] {b : Builtin} (hb : b ∈ math) :
    b.script.Typed code base c b.signature := by
  simp only [math, List.mem_cons, List.not_mem_nil, or_false] at hb
  obtain rfl | rfl | rfl | rfl | rfl | rfl | rfl | rfl | rfl := hb
  · exact sqrt_typed
  · exact absInt_typed
  · exact absFloat_typed
  · exact signInt_typed
  · exact signFloat_typed
  · exact positive_typed
  · exact zeros_typed
  · exact range_typed
  · exact steppedRange_typed

/-! ## Sequence builtins -/

variable {sequence element : Ty}

theorem len_typed (hsequence : sequence.element? = some element) :
    Native.Typed code base c ⟨[sequence], .int⟩ len := by
  intro args s hs hargs
  obtain ⟨v, rfl, hv⟩ := hargs.one
  unfold len
  refine Script.run_ok_typed (argument_zero _ _) ?_
  refine Script.run_bind_typed (p := fun _ _ => True) ?_ fun n t ht _ _ => ?_
  · cases sequence with
    | array e =>
      obtain ⟨w, hw, -⟩ := hv.view
      cases v with
      | array a => exact .pure hs trivial
      | slice x => exact .pure hs trivial
      | _ => cases hw
    | range e =>
      obtain ⟨r, rfl, -⟩ := Value.eq_range_of_ty hv.ty
      exact Script.run_cause_typed hs fun _ _ => trivial
    | _ => cases hsequence
  · split
    · exact .pure ht ⟨rfl, .int _⟩
    · exact .fault ht trivial

theorem viewToArray_typed {v : View} (hs : (Discipline.typedStore code base).holds s)
    (hv : v.array.storage.Typed code s.layouts v.array.element) :
    ((viewToArray v).run c).Obeys (.typedStore code base) s
      fun a t => (Value.array a).Fits code t.layouts (.array v.array.element) := by
  unfold viewToArray
  split
  · exact .pure hs (hv.array v.array.id)
  · refine .bind (newStorage_typed hs) fun id t ht grown _ => ?_
    exact Script.run_check_typed ht (ViewOf.copy_typed (hv.mono grown) id)

theorem collect_typed [Allocator] {it : Elements} (hs : (Discipline.typedStore code base).holds s)
    (hit : it.Typed code s.layouts element) (builtin : String) :
    ((collect builtin element it).run c).Obeys (.typedStore code base) s
      fun b t => b.Typed code t.layouts element := by
  unfold collect
  split
  · exact .fault hs trivial
  · next b hb =>
    cases Builder.withCapacity_eq_ok hb
    exact Script.run_check_typed hs (hit.fill .new it.remaining)

theorem toArray_typed [Allocator] (hsequence : sequence.element? = some element) :
    Native.Typed code base c ⟨[sequence], .array element⟩ toArray := by
  intro args s hs hargs
  obtain ⟨v, rfl, hv⟩ := hargs.one
  cases sequence with
  | array e =>
    cases hsequence
    obtain ⟨w, hw, rfl, hstorage⟩ := hv.view
    cases v with
    | array a => exact .pure hs hv
    | slice x =>
      cases hw
      refine Script.run_ok_typed (argument_zero _ _) ?_
      exact Script.run_bind_typed (viewToArray_typed hs hstorage) fun a t ht _ ha => .pure ht ha
    | _ => cases hw
  | range e =>
    cases hsequence
    obtain ⟨helement, helements⟩ := hv.elements rfl
    obtain ⟨r, rfl, rfl⟩ := Value.eq_range_of_ty hv.ty
    refine Script.run_ok_typed (argument_zero _ _) (Script.run_defect_ok_typed helement ?_)
    refine Script.run_bind_typed (p := fun it t => it.Typed code t.layouts r.element)
      (Script.run_check_typed hs helements) fun it t ht _ hit => ?_
    exact Script.run_bind_typed (collect_typed ht hit "to_array")
      fun b u hu _ hb => Script.run_finish_typed hu hb
  | _ => cases hsequence

/-! ## Builtins that call back -/

section Callbacks

variable {f : Function} {it : Elements} {b : Builder}

/-- Each round of `map` pushes one result; a callback may add closures, which keeps the rest typed. -/
theorem mapInto_typed {result : Ty} (hcall : c.Typed code base)
    (hsignature : f.target.signature = ⟨[element], result⟩) (limit : Nat)
    (hs : (Discipline.typedStore code base).holds s) (hf : f.Typed code s.layouts none)
    (hit : it.Typed code s.layouts element) (hb : b.Typed code s.layouts result) :
    ((mapInto f limit it b).run c).Obeys (.typedStore code base) s
      fun d t => d.Typed code t.layouts result := by
  induction limit generalizing it b s with
  | zero => exact .pure hs hb
  | succ limit ih =>
    unfold mapInto
    split
    · exact .pure hs hb
    · next v rest hnext =>
      obtain ⟨hv, hrest⟩ := hit.next hnext
      refine Script.run_bind_typed (p := fun x t => x.Fits code t.layouts element)
        (Script.run_check_typed hs hv) fun x t ht grown hx => ?_
      refine Script.run_bind_typed
        (Script.run_call_typed hcall ht (hf.mono grown) hsignature (.cons hx .nil))
        fun r u hu grown' hr => ?_
      have grown := grown.trans grown'
      obtain ⟨d, hpush, hd⟩ := (hb.mono grown).push hr
      exact Script.run_ok_typed hpush (ih hu (hf.mono grown) (hrest.mono grown) hd)

theorem map_typed [Allocator] (hcall : c.Typed code base)
    (hsequence : sequence.element? = some element) (result : Ty) :
    Native.Typed code base c ⟨[sequence, .function [element] result], .array result⟩ map := by
  intro args s hs hargs
  obtain ⟨v, w, rfl, hv, hw⟩ := hargs.two
  obtain ⟨f, rfl, hsignature, hf⟩ := hw.function
  obtain ⟨-, helements⟩ := hv.elements hsequence
  unfold map
  refine Script.run_ok_typed (argument_one _ _ _) (Script.run_defect_ok_typed rfl ?_)
  refine Script.run_callSite_typed hf ?_
  refine Script.run_ok_typed (argument_zero _ _) ?_
  refine Script.run_bind_typed (p := fun it t => it.Typed code t.layouts element)
    (Script.run_check_typed hs helements) fun it t ht grown hit => ?_
  split
  · exact .fault ht trivial
  · next b hb =>
    cases Builder.withCapacity_eq_ok hb
    have hresult : f.target.signature.result = result := by rw [hsignature]
    rw [hresult]
    exact Script.run_bind_typed
      (mapInto_typed hcall hsignature it.remaining ht (hf.mono grown) hit .new)
      fun d u hu _ hd => Script.run_finish_typed hu hd

theorem filterInto_typed (hcall : c.Typed code base)
    (hsignature : f.target.signature = ⟨[element], .bool⟩) (limit : Nat)
    (hs : (Discipline.typedStore code base).holds s) (hf : f.Typed code s.layouts none)
    (hit : it.Typed code s.layouts element) (hb : b.Typed code s.layouts element) :
    ((filterInto f limit it b).run c).Obeys (.typedStore code base) s
      fun d t => d.Typed code t.layouts element := by
  induction limit generalizing it b s with
  | zero => exact .pure hs hb
  | succ limit ih =>
    unfold filterInto
    split
    · exact .pure hs hb
    · next v rest hnext =>
      obtain ⟨hv, hrest⟩ := hit.next hnext
      refine Script.run_bind_typed (p := fun x t => x.Fits code t.layouts element)
        (Script.run_check_typed hs hv) fun x t ht grown hx => ?_
      refine Script.run_bind_typed
        (Script.run_call_typed hcall ht (hf.mono grown) hsignature (.cons hx .nil))
        fun r u hu grown' hr => ?_
      have grown := grown.trans grown'
      obtain ⟨keep, rfl⟩ := Value.eq_bool_of_ty hr.ty
      refine Script.run_defect_ok_typed rfl ?_
      cases keep with
      | false => exact ih hu (hf.mono grown) (hrest.mono grown) (hb.mono grown)
      | true =>
        obtain ⟨d, hpush, hd⟩ := (hb.mono grown).push (hx.mono grown')
        exact Script.run_ok_typed hpush (ih hu (hf.mono grown) (hrest.mono grown) hd)

theorem filter_typed (hcall : c.Typed code base) (hsequence : sequence.element? = some element) :
    Native.Typed code base c ⟨[sequence, .function [element] .bool], .array element⟩ filter := by
  intro args s hs hargs
  obtain ⟨v, w, rfl, hv, hw⟩ := hargs.two
  obtain ⟨f, rfl, hsignature, hf⟩ := hw.function
  obtain ⟨helement, helements⟩ := hv.elements hsequence
  unfold filter
  refine Script.run_ok_typed (argument_one _ _ _) (Script.run_defect_ok_typed rfl ?_)
  refine Script.run_callSite_typed hf ?_
  refine Script.run_ok_typed (argument_zero _ _) (Script.run_defect_ok_typed helement ?_)
  refine Script.run_bind_typed (p := fun it t => it.Typed code t.layouts element)
    (Script.run_check_typed hs helements) fun it t ht grown hit => ?_
  exact Script.run_bind_typed
    (filterInto_typed hcall hsignature it.remaining ht (hf.mono grown) hit .new)
    fun d u hu _ hd => Script.run_finish_typed hu hd

/-- The accumulator of a fold keeps the result type of its function. -/
theorem foldOver_typed {result : Ty} (hcall : c.Typed code base)
    (hsignature : f.target.signature = ⟨[result, element], result⟩) (limit : Nat) {acc : Value}
    (hs : (Discipline.typedStore code base).holds s) (hf : f.Typed code s.layouts none)
    (hit : it.Typed code s.layouts element) (hacc : acc.Fits code s.layouts result) :
    ((foldOver f limit it acc).run c).Obeys (.typedStore code base) s
      fun v t => v.Fits code t.layouts result := by
  induction limit generalizing it acc s with
  | zero => exact .pure hs hacc
  | succ limit ih =>
    unfold foldOver
    split
    · exact .pure hs hacc
    · next v rest hnext =>
      obtain ⟨hv, hrest⟩ := hit.next hnext
      refine Script.run_bind_typed (p := fun x t => x.Fits code t.layouts element)
        (Script.run_check_typed hs hv) fun x t ht grown hx => ?_
      refine Script.run_bind_typed (Script.run_call_typed hcall ht (hf.mono grown) hsignature
        (.cons (hacc.mono grown) (.cons hx .nil))) fun r u hu grown' hr => ?_
      have grown := grown.trans grown'
      exact ih hu (hf.mono grown) (hrest.mono grown) hr

theorem fold_typed (hcall : c.Typed code base) (hsequence : sequence.element? = some element)
    (result : Ty) :
    Native.Typed code base c ⟨[sequence, result, .function [result, element] result], result⟩
      fold := by
  intro args s hs hargs
  obtain ⟨v, w, x, rfl, hv, hw, hx⟩ := hargs.three
  obtain ⟨f, rfl, hsignature, hf⟩ := hx.function
  obtain ⟨-, helements⟩ := hv.elements hsequence
  unfold fold
  refine Script.run_ok_typed (argument_two _ _ _ _) (Script.run_defect_ok_typed rfl ?_)
  refine Script.run_callSite_typed hf ?_
  refine Script.run_ok_typed (argument_one _ _ _) (Script.run_ok_typed (argument_zero _ _) ?_)
  refine Script.run_bind_typed (p := fun it t => it.Typed code t.layouts element)
    (Script.run_check_typed hs helements) fun it t ht grown hit => ?_
  exact foldOver_typed hcall hsignature it.remaining ht (hf.mono grown) hit (hw.mono grown)

theorem reduce_typed (hcall : c.Typed code base) (hsequence : sequence.element? = some element) :
    Native.Typed code base c ⟨[sequence, .function [element, element] element], element⟩
      reduce := by
  intro args s hs hargs
  obtain ⟨v, w, rfl, hv, hw⟩ := hargs.two
  obtain ⟨f, rfl, hsignature, hf⟩ := hw.function
  obtain ⟨-, helements⟩ := hv.elements hsequence
  unfold reduce
  refine Script.run_ok_typed (argument_one _ _ _) (Script.run_defect_ok_typed rfl ?_)
  refine Script.run_callSite_typed hf ?_
  refine Script.run_ok_typed (argument_zero _ _) ?_
  refine Script.run_bind_typed (p := fun it t => it.Typed code t.layouts element)
    (Script.run_check_typed hs helements) fun it t ht grown hit => ?_
  split
  · exact .fault ht trivial
  · next first rest hnext =>
    obtain ⟨hfirst, hrest⟩ := hit.next hnext
    refine Script.run_bind_typed (p := fun x t => x.Fits code t.layouts element)
      (Script.run_check_typed ht hfirst) fun x u hu grown' hx => ?_
    exact foldOver_typed hcall hsignature rest.remaining hu (hf.mono (grown.trans grown'))
      (hrest.mono grown') hx

end Callbacks

/-! ## The standard library -/

theorem onSequence_typed [Allocator] (hcall : c.Typed code base)
    (hsequence : sequence.element? = some element) {b : Builtin} (hb : b ∈ onSequence sequence element) :
    b.script.Typed code base c b.signature := by
  simp only [onSequence, List.mem_append, List.mem_cons, List.not_mem_nil, or_false,
    List.mem_flatMap] at hb
  obtain (rfl | rfl | rfl | rfl) | ⟨result, -, rfl | rfl⟩ := hb
  · exact len_typed hsequence
  · exact toArray_typed hsequence
  · exact filter_typed hcall hsequence
  · exact reduce_typed hcall hsequence
  · exact map_typed hcall hsequence result
  · exact fold_typed hcall hsequence result

/-- **Every builtin of the standard library is typed** at its signature. -/
theorem standard_typed (hcall : c.Typed code base) {b : Builtin} (hb : b.IsStandard) :
    b.script.Typed code base c b.signature := by
  obtain ⟨_, hb⟩ := hb
  obtain hb | hb := List.mem_append.mp hb
  · exact math_typed hb
  · obtain ⟨p, hp, hb⟩ := List.mem_flatMap.mp hb
    exact onSequence_typed hcall (element?_of_mem_sequences hp) hb

end Builtin

end

end TypedEval
