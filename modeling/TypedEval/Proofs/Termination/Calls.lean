import TypedEval.Proofs.Termination.Evaluation

/-!
# Calls end

Guest code ends because its body does, in the frame that the call enters. A script of the standard
library ends if the functions that it calls back do: it asks for finitely many calls, each with
arguments of the callee's types.

A target is then reducible when the items of its body are (`Code.target_reducible`).
-/

namespace TypedEval

variable {code : Code} {base s t : Store}

/-! ## Bodies -/

/-- **A body ends** if its items are reducible, and what it is called with is. -/
theorem Body.run_ends {good : Function → Prop} (body : Body)
    (hbody : body.node.node.Accepted code good body.frame)
    (hitems : body.node.node.All (Item.Reducible code base)) (grown : base.Extends t)
    {captured : Option (Nat × Frame)} {args : List Value}
    (hcaptured : ∀ id closure, captured = some (id, closure) →
      closure.Of (Function.Reducible code t))
    (hargs : ∀ v ∈ args, v.WellTyped (Function.Reducible code t)) :
    Run.Ends .later (fun depth => body.run (code.call depth) captured args) t
      fun v u => v.Of (Function.Reducible code u) body.node.ty := by
  -- Reducible functions are no self-references, so disclosure leaves them as they are.
  have entered := body.enter_of hcaptured (fun id closure h i slot hslot =>
    (hcaptured id closure h i slot hslot).disclosed id fun f hf hself => by
      rw [hf.not_self] at hself
      cases hself) hargs
  rcases henter : body.enter captured args (.allocate body.frame) with ⟨r, frame⟩
  cases r with
  | error e =>
    have halted : ∀ depth, body.run (code.call depth) captured args t = (.error e, t) :=
      fun depth => by simp only [Body.run, henter]
    exact ⟨0, fun more _ => (halted more).trans (halted 0).symm,
      .of_halt (halted 0) trivial (.refl t) (entered.halt henter).2.2⟩
  | ok _ =>
    obtain ⟨⟨hlayout, hframe⟩, -, -⟩ := entered.ok henter
    have run : ∀ depth, body.run (code.call depth) captured args t
        = ((body.node.eval (code.call depth) ⟨frame, t⟩).1,
          (body.node.eval (code.call depth) ⟨frame, t⟩).2.store) :=
      fun depth => by simp only [Body.run, henter]
    obtain ⟨depth, same, obeys⟩ := AnyNode.eval_ends body.node hbody hitems (a := ⟨frame, t⟩)
      ⟨grown, hlayout, hframe⟩
    refine ⟨depth, fun more hle => ?_, ?_⟩
    · simp only [run, same more hle]
    · rcases heval : body.node.eval (code.call depth) ⟨frame, t⟩ with ⟨r, b⟩
      have ended := run depth
      rw [heval] at ended
      cases r with
      | ok v =>
        obtain ⟨-, leads, value⟩ := obeys.ok heval
        exact .of_ok ended trivial leads value
      | error e =>
        obtain ⟨-, leads, halts⟩ := obeys.halt heval
        exact .of_halt ended trivial leads halts

/-! ## Scripts -/

/-- A value of a primitive type holds no function. -/
theorem Value.wellTyped_of_primitive {good : Function → Prop} {v : Value}
    (h : v.ty.family.isPrimitive = true) : v.WellTyped good := by
  cases v with
  | bool b => exact .bool b
  | int n => exact .int n
  | float x => exact .float x
  | _ => cases h

/-- A type is **flat** when its functions return primitives, and its arrays hold primitives. -/
def Ty.isFlat : Ty → Bool
  | .array element => element.family.isPrimitive
  | .function _ result => result.family.isPrimitive
  | _ => true

/-- A function that may be called back: reducible, with a primitive result. -/
def Function.CalledBack (code : Code) (s : Store) (f : Function) : Prop :=
  f.Reducible code s ∧ f.target.signature.result.family.isPrimitive = true

/-- In a value of a flat type, functions may be called back. -/
theorem Value.Of.calledBack {v : Value} {ty : Ty} (hv : v.Of (Function.Reducible code s) ty)
    (hty : ty.isFlat = true) : v.Of (Function.CalledBack code s) ty := by
  obtain ⟨rfl, hw⟩ := hv
  refine ⟨rfl, ?_⟩
  cases hw with
  | bool b => exact .bool b
  | int n => exact .int n
  | float x => exact .float x
  | range r => exact .range r
  | function hf => exact .function ⟨hf, hty⟩
  | array category types _ =>
    exact .array category types fun v hv =>
      Value.wellTyped_of_primitive (by rw [types v hv]; exact hty)
  | slice category types _ =>
    exact .slice category types fun v hv =>
      Value.wellTyped_of_primitive (by rw [types v hv]; exact hty)

theorem Value.Of.reducible {v : Value} {ty : Ty} (hv : v.Of (Function.CalledBack code s) ty) :
    v.Of (Function.Reducible code s) ty :=
  ⟨hv.ty, hv.wellTyped.imp fun _ hf => hf.1⟩

/-- **A script ends** if it asks for calls of reducible functions. They return primitives, so what
they return is fit for the rest of the script in whatever store they end. -/
theorem Script.run_ends {α : Type} {p : α → Prop} {m : Script α}
    (hm : m.Abides (Function.Takes (Function.CalledBack code s))
      (Function.Returns (Function.CalledBack code s)) p) (grown : s.Extends t) :
    Run.Ends .later (fun depth => m.run (code.call depth)) t fun a u => p a ∧ s.Extends u := by
  induction hm generalizing t with
  | done ha => exact .of_obeys (.pure trivial ⟨ha, grown⟩)
  | fail f => exact .of_obeys (.fault trivial (Halt.fault_ne_exhausted _ _))
  | newStorage _ ih =>
    exact newStorage_later.bind_ends fun id u _ later _ => ih id (grown.trans later)
  | resolve f _ ih =>
    refine .bind (p := fun _ u => u = t) (.of_obeys (.read trivial (fun _ _ => rfl) fun _ _ => ?_)) ?_
    · exact Halt.fault_ne_exhausted _ _
    · rintro _ u - - rfl
      exact ih grown
  | @call f args next asked _ ih =>
    obtain ⟨⟨hf, hprimitive⟩, hargs⟩ := asked
    have hargs : List.Forall₂ (Value.Of (Function.Reducible code t)) f.target.signature.params
        args := hargs.imp fun _ _ hv => hv.reducible.mono grown
    refine (hf.ends grown hargs).bind fun v u _ later hv => ih v ⟨hv.ty, ?_⟩ (grown.trans later)
    exact Value.wellTyped_of_primitive (by rw [hv.ty]; exact hprimitive)

namespace Builtin

/-- Standard builtins take values of flat types. -/
theorem standard_flat {b : Builtin} (hb : b.IsStandard) :
    ∀ ty ∈ b.signature.params, ty.isFlat = true := by
  obtain ⟨_, hb⟩ := hb
  have flat : standard.all (fun b => b.signature.params.all Ty.isFlat) = true := rfl
  exact List.all_eq_true.mp (List.all_eq_true.mp flat b hb)

/-- **A standard builtin ends** with reducible arguments of its types. -/
theorem run_ends {b : Builtin} (hb : b.IsStandard) {args : List Value}
    (hargs : List.Forall₂ (Value.Of (Function.Reducible code t)) b.signature.params args) :
    Run.Ends .later (fun depth => (b.script args).run (code.call depth)) t
      fun v u => v.Of (Function.Reducible code u) b.signature.result := by
  have flat := standard_flat hb
  have hargs : List.Forall₂ (Value.Of (Function.CalledBack code t)) b.signature.params args := by
    generalize b.signature.params = tys at hargs flat
    induction hargs with
    | nil => exact .nil
    | cons hv _ ih =>
      obtain ⟨hty, htys⟩ := List.forall_mem_cons.mp flat
      exact .cons (hv.calledBack hty) (ih htys)
  refine (Script.run_ends (standard_abides hb args hargs) (.refl t)).imp ?_
  rintro v u ⟨hv, later⟩
  exact hv.reducible.mono later

end Builtin

/-! ## Functions -/

/-- A call needs one level more than the code it enters. -/
theorem Code.call_ends {f : Function} {args : List Value} {p : Value → Store → Prop}
    (h : Run.Ends .later (fun depth => code.enter (code.call depth) f args) t p) :
    Run.Ends .later (fun depth => code.call depth f args) t p := by
  obtain ⟨depth, same, obeys⟩ := h
  refine ⟨depth + 1, fun more hle => ?_, obeys.within fun e he => ?_⟩
  · cases more with
    | zero => exact absurd hle (Nat.not_succ_le_zero depth)
    | succ more => simp only [Code.call, Run.mapHalt, same more (Nat.le_of_succ_le_succ hle)]
  · cases e with
    | exhausted => exact he
    | fault f trace => cases f <;> exact Halt.fault_ne_exhausted _ _

/-- **An admitted target is reducible** when the body that it runs is accepted and has reducible
items. -/
theorem Code.target_reducible {good : Function → Prop} {target : Target}
    (hadmits : code.Admits code.standardHosts (.plain target))
    (hbody : ∀ body, code.routine? target = some (.user body) →
      body.node.node.Accepted code good body.frame ∧
        body.node.node.All (Item.Reducible code base)) : target.Reducible code base := by
  rintro s f grown rfl hself hclosure
  refine .of_ends hself fun t later args hargs => Code.call_ends ?_
  refine (Run.Obeys.read (D := .later) (p := fun r u => u = t ∧ f.closureIn t = .ok r) trivial
    (fun r hr => ⟨rfl, lift_defect_eq_ok.mp hr⟩)
    fun e _ => Halt.fault_ne_exhausted e []).bind_ends ?_
  rintro captured _ - - ⟨rfl, hcaptured⟩
  unfold Code.Admits at hadmits
  simp only [Function.plain] at hadmits
  cases hroutine : code.routine? f.target with
  | none => exact .of_obeys (.fault trivial (Halt.fault_ne_exhausted _ _))
  | some routine =>
    simp only [hroutine] at hadmits
    cases routine with
    | user body =>
      obtain ⟨haccepted, hitems⟩ := hbody body hroutine
      rw [hadmits]
      refine Body.run_ends body haccepted hitems (grown.trans later) ?_ (wellTyped_of_forall₂ hargs)
      -- The closure is the one that was there when the function was made.
      rintro id closure rfl
      obtain ⟨hid, hframe⟩ := Function.closure_of_closureIn hcaptured
      obtain ⟨frame, hold, hof⟩ := hclosure id hid
      rw [later id frame hold] at hframe
      cases hframe
      exact hof.mono later
    | native script =>
      cases captured with
      | some _ => exact .of_obeys (.fault trivial (Halt.fault_ne_exhausted _ _))
      | none =>
        obtain ⟨-, b, hb, hscript, hsignature⟩ := hadmits
        cases hroutine.symm.trans hscript
        rw [← hsignature] at hargs ⊢
        exact Builtin.run_ends hb hargs

end TypedEval
