import TypedEval.Proofs.Boxed.Evaluation
import TypedEval.Proofs.Typing.Soundness

/-!
# Unboxed evaluation is boxed evaluation

A call enters the same frame on boxed values: what a closure discloses and what parameters take are of
the slots' types. By induction on the depth of calls the two ways of calling agree, and with them
whole evaluations (`Code.evalBoxed_eq`): in value, halt, trace, frame and store, at every depth, so
that also neither ends where the other does not.

The premises hold of everything that type soundness is about. Builtins of the standard library abide
by their signatures (`Code.abides_standard`), and a typed activation is of its layout.
-/

namespace TypedEval

/-! ## Entering a body -/

section

variable {good : Function → Prop} {closure : Frame}

/-- A slot is disclosed in one way only. -/
theorem discloseSlotBoxed_eq (hclosure : closure.Of good) (id : Nat) (t : Transfer) (frame : Frame) :
    discloseSlotBoxed id closure t frame = discloseSlot id closure t frame := by
  unfold discloseSlotBoxed discloseSlot
  cases hcopy : Frame.copySlot closure t frame with
  | error e => rfl
  | ok u =>
    obtain ⟨here, there, hhere, hthere, hty, rfl⟩ := Frame.copySlot_eq_ok hcopy
    have written := Frame.slot_setCell_self here.cell hthere
    have hcell : here.cell.Of good there.ty := by rw [hty]; exact hclosure _ _ hhere
    simp only [ok_bind]
    rw [Frame.slot_eq_ok.mpr written]
    show (if (here.cell.isDefined && there.ty.isFunction) = true then _ else _)
      = (if (here.cell.isDefined && there.ty.isFunction) = true then _ else _)
    split
    · next hfunction =>
      have hfamily : there.ty.family = .function := by
        cases hc : there.ty <;> rw [hc] at hfunction <;>
          first | rfl | simp [Ty.isFunction, Ty.signature?] at hfunction
      have value := Frame.readValue_of_shaped written hcell.shaped hfamily
      rw [value]
      show (Except.map Value.function (Frame.readFunction _ t.target) >>= _) = _
      cases hread : (frame.setCell t.target here.cell).readFunction t.target with
      | error e => rfl
      | ok f =>
        obtain ⟨s, hs, hf⟩ := Frame.readFunction_eq_ok hread
        rw [written] at hs
        cases hs
        have hf : here.cell = .reference (.function f) := hf
        rw [hf] at hcell
        have hd : (frame.setCell t.target here.cell).layout.Declares t.target
            (f.withClosure id).ty := by
          have hdeclared := Frame.declares_of_slot written
          rw [← hcell.2.ty] at hdeclared
          exact hdeclared
        show (if f.isSelfReference = true then _ else _) = (if f.isSelfReference = true then _ else _)
        rw [Frame.writeFunction_eq_writeValue hd]
    · rfl

theorem discloseSlotsBoxed_eq (hclosure : closure.Of good) (id : Nat) (ts : List Transfer) :
    discloseSlotsBoxed id closure ts = discloseSlots id closure ts := by
  induction ts with
  | nil => rfl
  | cons t ts ih =>
    simp only [discloseSlotsBoxed, discloseSlots, ih]
    rw [show discloseSlotBoxed id closure t = discloseSlot id closure t from
      funext (discloseSlotBoxed_eq hclosure id t)]

/-- **A body is entered in one way only.** -/
theorem Body.enterBoxed_eq (body : Body) {captured : Option (Nat × Frame)}
    (hcaptured : ∀ id closure, captured = some (id, closure) → closure.Of good)
    (args : List Value) : body.enterBoxed captured args = body.enter captured args := by
  have disclosed : discloseBoxed body.disclosure captured = disclose body.disclosure captured := by
    unfold discloseBoxed disclose
    split
    · rfl
    · next id closure => rw [discloseSlotsBoxed_eq (hcaptured id closure rfl)]
  unfold Body.enterBoxed Body.enter
  rw [disclosed]

end

/-! ## Calls -/

section

variable {code : Code} {hosts : Nat → Signature → Prop} {call boxed : Caller}

theorem Body.runBoxed_agrees (hcall : Caller.Agrees (code.Admits hosts) call boxed) (body : Body)
    (hbody : body.node.node.Accepted code (code.Admits hosts) body.frame)
    (hrec : body.node.node.DefinesRecursion) {captured : Option (Nat × Frame)} {args : List Value}
    (hcaptured : ∀ id closure, captured = some (id, closure) → closure.Of (code.Admits hosts))
    (hargs : ∀ v ∈ args, v.WellTyped (code.Admits hosts)) {s : Store}
    (hs : s.Of (code.Admits hosts)) :
    Run.Agrees (Store.Of (code.Admits hosts)) id (fun v _ => v.Of (code.Admits hosts) body.node.ty)
      (body.run call captured args) (body.runBoxed boxed captured args) s := by
  -- What is admitted is a matter of the target, and disclosure keeps the target.
  have entered := body.enter_of hcaptured (fun id closure h i slot hslot =>
    (hcaptured id closure h i slot hslot).disclosed id fun _ hf _ => hf) hargs
  have enter := body.enterBoxed_eq hcaptured args
  rcases henter : body.enter captured args (.allocate body.frame) with ⟨r, frame⟩
  have henterBoxed := henter
  rw [← enter] at henterBoxed
  cases r with
  | error e =>
    exact .of_halt (e := e) (by simp only [Body.run, henter])
      (by simp only [Body.runBoxed, henterBoxed]) hs
  | ok _ =>
    obtain ⟨⟨hlayout, hframe⟩, -, -⟩ := entered.ok henter
    have ready : Activation.Of (code.Admits hosts) body.frame ⟨frame, s⟩ := ⟨hlayout, hframe, hs⟩
    obtain ⟨same, keeps, value⟩ := AnyNode.evalBoxed_agrees hcall body.node hbody hrec ready
    rcases heval : body.node.eval call ⟨frame, s⟩ with ⟨v, b⟩
    rw [heval] at same keeps
    have first : body.run call captured args s = (v, b.store) := by
      simp only [Body.run, henter, heval]
    have second : body.runBoxed boxed captured args s = (v.map id, b.store) := by
      simp only [Body.runBoxed, henterBoxed, same]
    cases v with
    | ok v => exact .of_ok first second keeps.store (value v b heval)
    | error e => exact .of_halt first second keeps.store

/-- A script that abides runs alike over ways of calling that agree. -/
theorem Script.run_agrees {α : Type} (hcall : Caller.Agrees (code.Admits hosts) call boxed)
    {p : α → Prop} {m : Script α} (hm : m.Abides (Function.Callable (code.Admits hosts))
      (Function.Returns (code.Admits hosts)) p) {s : Store} (hs : s.Of (code.Admits hosts)) :
    Run.Agrees (Store.Of (code.Admits hosts)) id (fun a _ => p a) (m.run call) (m.run boxed) s := by
  induction hm generalizing s with
  | done ha => exact .pure rfl hs ha
  | fail f => exact .fault hs
  | newStorage _ ih => exact .bind (newStorage_agrees hs) fun id t ht _ => ih id ht
  | resolve f _ ih =>
    have looked : Run.Agrees (Store.Of (code.Admits hosts)) id (fun _ t => t = s)
        (Run.read fun (s : Store) => f.closureIn s) (Run.read fun (s : Store) => f.closureIn s) s :=
      .read (id_map _).symm hs fun _ _ => rfl
    refine looked.bind ?_
    rintro _ t ht rfl
    exact ih ht
  | call asked _ ih => exact .bind (hcall _ _ s hs asked) fun v t ht hv => ih v hv ht

/-- **The code of an admitted function runs alike** over ways of calling that agree. -/
theorem Code.enterBoxed_agrees (hhosts : code.Abides hosts)
    (hcode : code.Accepted (code.Admits hosts)) (hrec : code.DefinesRecursion)
    (hcall : Caller.Agrees (code.Admits hosts) call boxed) :
    Caller.Agrees (code.Admits hosts) (code.enter call) (code.enterBoxed boxed) := by
  intro f args s hs hf
  have looked : Run.Agrees (Store.Of (code.Admits hosts)) id
      (fun r t => t = s ∧ f.closureIn s = .ok r) (Run.read fun (s : Store) => f.closureIn s)
      (Run.read fun (s : Store) => f.closureIn s) s :=
    .read (id_map _).symm hs fun r hr => ⟨rfl, lift_defect_eq_ok.mp hr⟩
  refine looked.bind ?_
  rintro captured t ht ⟨rfl, hcaptured⟩
  have hclosure : ∀ id closure, captured = some (id, closure) → closure.Of (code.Admits hosts) := by
    rintro id closure rfl
    exact ht id closure (Function.closure_of_closureIn hcaptured).2
  have admitted := hf.admitted
  unfold Code.Admits at admitted
  simp only [id_eq]
  cases hroutine : code.routine? f.target with
  | none => exact .fault ht
  | some routine =>
    simp only [hroutine] at admitted
    cases routine with
    | user body =>
      have hmem := Array.mem_of_getElem? hroutine
      refine (Body.runBoxed_agrees hcall body (hcode body hmem) (hrec body hmem) hclosure
        hf.wellTyped ht).imp fun v _ hv => ?_
      show v.Of _ _
      rw [admitted]
      exact hv
    | native script =>
      cases captured with
      | some _ => exact .fault ht
      | none =>
        have htypes := hf.native (by simp [Target.isNative, admitted.1])
        exact Script.run_agrees hcall (hhosts _ _ _ hroutine admitted.2 args
          (forall₂_of_types htypes hf.wellTyped)) ht

/-- **Calls agree**, however deep they may nest. -/
theorem Code.callBoxed_agrees (hhosts : code.Abides hosts)
    (hcode : code.Accepted (code.Admits hosts)) (hrec : code.DefinesRecursion) (depth : Nat) :
    Caller.Agrees (code.Admits hosts) (code.call depth) (code.callBoxed depth) := by
  induction depth with
  | zero => exact fun f args s hs _ => .of_halt rfl rfl hs
  | succ depth ih =>
    intro f args s hs hf
    exact (Code.enterBoxed_agrees hhosts hcode hrec ih f args s hs hf).mapHalt

end

/-! ## Standard builtins -/

/-- **Standard builtins abide by their signatures**, in every code table. -/
theorem Code.abides_standard (code : Code) : code.Abides code.standardHosts := by
  rintro id script signature hscript ⟨b, hb, hroutine, rfl⟩ args hargs
  rw [hscript] at hroutine
  cases hroutine
  exact (Builtin.standard_abides hb args hargs).imp fun f args h => h.callable

/-! ## Evaluations -/

/-- **Unboxed evaluation is boxed evaluation.** Over accepted bodies, host functions that abide by
their signatures, and a frame and closures that are of their layouts, an accepted tree is evaluated to
the same end with every node, slot, element and operand boxed: the same value or the same halt with
the same trace, and the same frame and store. That is so at every depth of calls, so the one exhausts
every depth when the other does. -/
theorem Code.evalBoxed_eq (code : Code) (hosts : Nat → Signature → Prop) (depth : Nat)
    (layout : Layout) (n : AnyNode) (a : Activation) (hhosts : code.Abides hosts)
    (hcode : code.Accepted (code.Admits hosts)) (hcodeRec : code.DefinesRecursion)
    (hn : n.node.Accepted code (code.Admits hosts) layout) (hnRec : n.node.DefinesRecursion)
    (ha : a.Of (code.Admits hosts) layout) :
    code.evalBoxed depth n a = code.eval depth n a := by
  have calls := Code.callBoxed_agrees hhosts hcode hcodeRec depth
  have agreed := (AnyNode.evalBoxed_agrees calls n hn hnRec ha).same
  show n.node.evalBoxed (code.callBoxed depth) a = n.eval (code.call depth) a
  rw [agreed, Except.map_id]
  rfl

/-- The elements are counted down alike, boxed and unboxed. -/
theorem countdowns_boxed :
    (Countdowns.code.evalBoxed 9 Countdowns.tree Countdowns.start).1.toOption.bind Countdowns.ints?
      = some #[0, 0] ∧
    Countdowns.code.evalBoxed 9 Countdowns.tree Countdowns.start
      = Countdowns.code.eval 9 Countdowns.tree Countdowns.start :=
  ⟨by decide +kernel,
    Code.evalBoxed_eq Countdowns.code Countdowns.code.standardHosts 9 Countdown.layout
      Countdowns.tree Countdowns.start Countdowns.code.abides_standard (Countdowns.code_accepted _)
      Countdowns.code_definesRecursion
      (Countdowns.tree_accepted ⟨rfl, _, Countdowns.map_standard, rfl, rfl⟩)
      Countdowns.tree_definesRecursion Countdowns.start_typed.of⟩

end TypedEval
