import TypedEval.Proofs.Typing.Evaluation

/-!
# Type soundness

Calls of typed functions are typed, by induction on the depth of calls, and with them whole
evaluations (`Code.eval_sound`): a value fits the type of its node, frame and store stay typed, and
however the evaluation ends, it ends in none of the defects that types exclude.

Self-references are the one thing that soundness asks of constants and frames beyond their types. A
function read out of its own closure by hand is a self-reference; as a constant it is captured like
any function, and disclosure then gives it the closure that it was captured in
(`Stray.eval_defect`).
-/

namespace TypedEval

/-! ## Calls -/

section

variable {code : Code} {base ls : List Layout} {call : Caller}

theorem writeParams_typed {layout : Layout} {slots : List Nat} {tys : List Ty} {args : List Value}
    (hchecked : FunctionSpec.checkParams layout slots tys = .ok ())
    (hlength : tys.length = slots.length) (hargs : FitsAll code ls args tys) {frame : Frame}
    (hframe : (Discipline.typedFrame code ls layout).holds frame) :
    (writeParams slots args).Obeys (.typedFrame code ls layout) frame fun _ _ => True := by
  induction slots generalizing tys args frame with
  | nil => exact .pure hframe trivial
  | cons slot slots ih =>
    cases tys with
    | nil => cases hlength
    | cons ty tys =>
      obtain ⟨v, vs, rfl, hv, hvs⟩ := hargs.uncons
      obtain ⟨_, hslot, hrest⟩ := bind_eq_ok.mp hchecked
      refine .bind (p := fun _ _ => True) ?_
        (fun _ g hg _ _ => ih hrest (Nat.succ.inj hlength) hvs hg)
      obtain ⟨rfl, htyped⟩ := hframe
      obtain ⟨g, hg, hlayout, hgtyped⟩ := htyped.writeValue (Layout.expectSlot_eq_ok.mp hslot) hv
      exact .of_update hg ⟨hlayout, hgtyped⟩ trivial trivial

/-- **Entering a body gives a typed frame**: captured slots and parameters are written to slots of
their types. -/
theorem Body.enter_typed {body : Body} {closure : Layout} {name : Option String} {t : Target}
    (hcheck : FunctionSpec.check
      ⟨name, t.ty, body.frame, body.params, closure, body.disclosure, body.node⟩ = .ok t.signature)
    {captured : Option (Nat × Frame)}
    (hcaptured : ∀ k frame, captured = some (k, frame) →
      frame.layout = closure ∧ frame.Typed code ls (some k))
    {args : List Value} (hargs : FitsAll code ls args t.signature.params) :
    (body.enter captured args).Obeys (.typedFrame code ls body.frame) (.allocate body.frame)
      fun _ _ => True := by
  obtain ⟨hlength, hparams, -, hdisclosure⟩ := FunctionSpec.check_eq_ok hcheck
  have fresh : (Discipline.typedFrame code ls body.frame).holds (.allocate body.frame) :=
    ⟨Frame.layout_allocate _, .allocate _⟩
  refine .bind (disclose_typed hcaptured fresh hdisclosure) fun _ frame hframe _ _ => ?_
  have count : args.length = body.params.length := by
    rw [← hlength, ← hargs.types, List.length_map]
  rw [if_neg (not_not_intro count)]
  exact writeParams_typed hparams hlength hargs hframe

/-- **A body gives a result of its function's type.** -/
theorem Body.run_typed (hcall : call.Typed code base) {body : Body} {closure : Layout}
    {name : Option String} {t : Target}
    (hbody : body.node.node.Accepted code (Function.Typed code base none) body.frame)
    (hrec : body.node.node.DefinesRecursion)
    (hcheck : FunctionSpec.check
      ⟨name, t.ty, body.frame, body.params, closure, body.disclosure, body.node⟩ = .ok t.signature)
    {s : Store} (hs : (Discipline.typedStore code base).holds s) {captured : Option (Nat × Frame)}
    (hcaptured : ∀ k frame, captured = some (k, frame) →
      frame.layout = closure ∧ frame.Typed code s.layouts (some k))
    {args : List Value} (hargs : FitsAll code s.layouts args t.signature.params) :
    (body.run call captured args).Obeys (.typedStore code base) s
      fun v u => v.Fits code u.layouts t.signature.result := by
  have entered := Body.enter_typed hcheck hcaptured hargs
  obtain ⟨-, -, hresult, -⟩ := FunctionSpec.check_eq_ok hcheck
  rw [hresult]
  rcases henter : body.enter captured args (.allocate body.frame) with ⟨r, frame⟩
  cases r with
  | error e =>
    obtain ⟨-, -, halted⟩ := entered.halt henter
    exact .of_halt (by simp only [Body.run, henter]) hs List.prefix_rfl halted
  | ok _ =>
    obtain ⟨⟨hlayout, hframe⟩, -, -⟩ := entered.ok henter
    have ready : (Discipline.typed code base body.frame).holds ⟨frame, s⟩ :=
      ⟨⟨hlayout, hframe, hs.1⟩, hs.2⟩
    have evaluated := AnyNode.eval_typed hcall body.node hbody hrec ready
    rcases heval : body.node.eval call ⟨frame, s⟩ with ⟨v, b⟩
    have run : body.run call captured args s = (v, b.store) := by
      simp only [Body.run, henter, heval]
    cases v with
    | ok v =>
      obtain ⟨hb, grown, hv⟩ := evaluated.ok heval
      exact .of_ok run ⟨hb.1.store, hb.2⟩ grown hv
    | error e =>
      obtain ⟨hb, grown, halted⟩ := evaluated.halt heval
      exact .of_halt run ⟨hb.1.store, hb.2⟩ grown halted

/-- **Running the code of a typed function is typed.** -/
theorem Code.enter_typed (hcode : code.Accepted (Function.Typed code base none))
    (hrec : code.DefinesRecursion) (hcall : call.Typed code base) :
    Caller.Typed code base (code.enter call) := by
  intro f args s hs hf hargs
  obtain ⟨r, hr⟩ := hf.laidOut.closureIn
  refine .bind_read (by exact lift_defect_eq_ok.mpr hr) ?_
  have named := Function.closureId?_of_closureIn hr
  have declared := hf.declared
  unfold Code.Declares at declared
  split at declared
  · exact declared.elim
  · next body hroutine =>
    obtain ⟨closure, hclosure, hcheck⟩ := declared
    have hmem := Array.mem_of_getElem? hroutine
    simp only [hroutine]
    refine Body.run_typed hcall (hcode body hmem) (hrec body hmem) hcheck hs ?_ hargs
    rintro k frame rfl
    obtain ⟨g, hg, hlayout⟩ := hf.laidOut.closure named
    rw [Function.closureIn_of_some named hg] at hr
    cases hr
    rw [hclosure] at hlayout
    cases hlayout
    exact ⟨rfl, hs.1 k frame hg⟩
  · next script hroutine =>
    obtain ⟨hclosure, b, hb, rfl, hsignature⟩ := declared
    -- A host function has no closure layout, so a laid-out value of it has no closure.
    have hnone : r = none := by
      cases r with
      | none => rfl
      | some r =>
        obtain ⟨g, -, hlayout⟩ := hf.laidOut.closure named
        rw [hclosure] at hlayout
        cases hlayout
    subst hnone
    simp only [hroutine]
    rw [← hsignature] at hargs ⊢
    exact Builtin.standard_typed hcall hb args s hs hargs

/-- **Calls are typed**, however deep they may nest. -/
theorem Code.call_typed (hcode : code.Accepted (Function.Typed code base none))
    (hrec : code.DefinesRecursion) (depth : Nat) : Caller.Typed code base (code.call depth) := by
  induction depth with
  | zero => exact fun f args s hs _ _ => .of_halt rfl hs List.prefix_rfl trivial
  | succ depth ih =>
    intro f args s hs hf hargs
    exact (Code.enter_typed hcode hrec ih f args s hs hf hargs).within
      fun e he => he.within f.displayName

end

/-! ## Evaluations -/

/-- **Type soundness.** Over accepted bodies, an accepted tree is evaluated in a typed activation. If
it ends in a value, the value is well typed and of the tree's type. If it halts, it halts with a
cause, at an undefined slot, at a call with a closure missing or needless, at a view that reaches
outside its storage, or at its depth; never with any other defect, assertion or crash. In both cases
the frame and the closures, old and new, are typed, and the old closures have kept their layouts. -/
theorem Code.eval_sound (code : Code) (depth : Nat) (layout : Layout) (n : AnyNode)
    (a : Activation) (ha : a.Typed code layout)
    (hcode : code.Accepted (Function.Typed code a.store.layouts none))
    (hcodeRec : code.DefinesRecursion)
    (hn : n.node.Accepted code (Function.Typed code a.store.layouts none) layout)
    (hnRec : n.node.DefinesRecursion) :
    (∀ v b, code.eval depth n a = (.ok v, b) → v.Fits code b.store.layouts n.ty) ∧
    (∀ h b, code.eval depth n a = (.error h, b) → h.Admissible) ∧
    (code.eval depth n a).2.Typed code layout ∧
    a.store.layouts <+: (code.eval depth n a).2.store.layouts := by
  have ready : (Discipline.typed code a.store.layouts layout).holds a := ⟨ha, List.prefix_rfl⟩
  have evaluated := AnyNode.eval_typed (Code.call_typed hcode hcodeRec depth) n hn hnRec ready
  refine ⟨?_, ?_, evaluated.holds.1, evaluated.leads⟩
  · intro v b hv
    exact (evaluated.ok hv).2.2
  · intro h b hh
    exact (evaluated.halt hh).2.2

/-! Counting down the elements of `[2, 1]`: a recursive function, called back by a standard builtin. -/

namespace Countdowns

def map : Target := ⟨1, some "map", ⟨[.array .int, Countdown.signature.ty], .array .int⟩, none⟩

def code : Code := ⟨#[.user Countdown.body, .native Builtin.map]⟩

/-- `let rec f = countdown in map([2, 1], f)`. -/
def tree : AnyNode :=
  ⟨.reference,
    .block (.bindRec 0 (.define Countdown.target ⟨Countdown.closure, []⟩) 0 .nil)
      (.call (.function (.plain map))
        (.cons .reference (.array .int (.cons .int (.int 2) (.cons .int (.int 1) .nil)))
          (.cons .function (.read 0 Countdown.signature.ty) .nil)) (.array .int))⟩

/-- Nothing is bound, and there are no closures. -/
def start : Activation := ⟨.allocate Countdown.layout, .empty⟩

/-- The elements of an array of integers. -/
def ints? : Value → Option (Array Int64)
  | .array ⟨_, _, .ints items⟩ => some items
  | _ => none

theorem start_typed : start.Typed code Countdown.layout :=
  ⟨Frame.layout_allocate _, .allocate _, fun _ _ h => (nomatch h)⟩

theorem body_of_mem {b : Body} (hb : .user b ∈ code.routines) : b = Countdown.body := by
  simpa [code] using hb

theorem code_accepted (good : Function → Prop) : code.Accepted good := by
  intro b hb
  cases body_of_mem hb
  exact ⟨rfl, ⟨rfl, trivial⟩, trivial, rfl, rfl, ⟨rfl, trivial⟩, trivial⟩

theorem code_definesRecursion : code.DefinesRecursion := by
  intro b hb
  cases body_of_mem hb
  exact ⟨⟨trivial, trivial⟩, trivial, trivial, ⟨trivial, trivial⟩, trivial⟩

theorem tree_accepted {good : Function → Prop} (h : good (.plain map)) :
    tree.node.Accepted code good Countdown.layout :=
  ⟨⟨rfl, ⟨rfl, Countdown.closure, rfl, rfl⟩, trivial⟩, rfl, h, ⟨rfl, trivial, trivial, trivial⟩,
    rfl, trivial⟩

theorem tree_definesRecursion : tree.node.DefinesRecursion :=
  ⟨⟨⟨_, _, rfl⟩, trivial⟩, trivial, ⟨trivial, trivial, trivial⟩, trivial, trivial⟩

theorem map_standard : (⟨"map", map.signature, Builtin.map⟩ : Builtin).IsStandard :=
  Builtin.map_isStandard (by simp [Builtin.sequences]) (by simp [Builtin.results, Countdown.signature])

theorem map_typed : (Function.plain map).Typed code start.store.layouts none :=
  ⟨⟨rfl, _, map_standard, rfl, rfl⟩, fun _ h => (nomatch h), fun h => (nomatch h)⟩

end Countdowns

/-- The elements are accepted to be counted down, and they are. -/
theorem countdowns_sound :
    (Countdowns.code.eval 9 Countdowns.tree Countdowns.start).1.toOption.bind Countdowns.ints?
      = some #[0, 0] ∧
    (∀ v b, Countdowns.code.eval 9 Countdowns.tree Countdowns.start = (.ok v, b) →
      v.Fits Countdowns.code b.store.layouts (.array .int)) ∧
    (∀ h b, Countdowns.code.eval 9 Countdowns.tree Countdowns.start = (.error h, b) →
      h.Admissible) ∧
    (Countdowns.code.eval 9 Countdowns.tree Countdowns.start).2.Typed Countdowns.code
      Countdown.layout ∧
    Countdowns.start.store.layouts <+:
      (Countdowns.code.eval 9 Countdowns.tree Countdowns.start).2.store.layouts :=
  ⟨by decide +kernel,
    Code.eval_sound Countdowns.code 9 Countdown.layout Countdowns.tree Countdowns.start
      Countdowns.start_typed (Countdowns.code_accepted _) Countdowns.code_definesRecursion
      (Countdowns.tree_accepted Countdowns.map_typed) Countdowns.tree_definesRecursion⟩

/-! ## A self-reference outside its closure

A function `f` whose closure holds itself and `k = 7`; its self-reference, as it stands in that
closure, is made a constant and captured by a second function `h`, which calls it. The constant is
declared, laid out, and of the right type. -/

namespace Stray

def closure : Layout := ⟨#[⟨"f", Countdown.signature.ty⟩, ⟨"k", .int⟩]⟩

def target : Target := ⟨0, some "f", Countdown.signature, some closure⟩

/-- `if n ≤ 0 then k else f (n - 1)`. -/
def body : Body where
  frame := ⟨#[⟨"f", Countdown.signature.ty⟩, ⟨"k", .int⟩, ⟨"n", .int⟩]⟩
  params := [2]
  disclosure := [⟨0, 0⟩, ⟨1, 1⟩]
  node := ⟨.int,
    .cond (.compareInt .le (.read 2 .int) (.int 0)) (.read 1 .int)
      (.call (.read 0 Countdown.signature.ty)
        (.cons .int (.arithInt .sub (.read 2 .int) (.int 1)) .nil) .int)⟩

def holderClosure : Layout := ⟨#[⟨"g", Countdown.signature.ty⟩]⟩

def holder : Target := ⟨1, some "h", Countdown.signature, some holderClosure⟩

/-- `g n`. -/
def holderBody : Body where
  frame := ⟨#[⟨"g", Countdown.signature.ty⟩, ⟨"n", .int⟩]⟩
  params := [1]
  disclosure := [⟨0, 0⟩]
  node := ⟨.int, .call (.read 0 Countdown.signature.ty) (.cons .int (.read 1 .int) .nil) .int⟩

def code : Code := ⟨#[.user body, .user holderBody]⟩

/-- The function as it stands in its own closure. -/
def function : Function := ⟨target, some (.selfReference 0)⟩

def layout : Layout := ⟨#[⟨"g", Countdown.signature.ty⟩, ⟨"h", Countdown.signature.ty⟩]⟩

/-- The store holds the closure of `f`, tied to itself. -/
def start : Activation where
  frame := .allocate layout
  store := ⟨#[⟨#[⟨⟨"f", Countdown.signature.ty⟩, .reference (.function function)⟩,
    ⟨⟨"k", .int⟩, .int 7⟩]⟩], 0⟩

/-- `let g = f, h = fn n => g n in h 3`. -/
def tree : AnyNode :=
  ⟨.int,
    .block
      (.bind .function 0 (.function function)
        (.bind .function 1 (.define holder ⟨holderClosure, [⟨0, 0⟩]⟩) .nil))
      (.call (.read 1 Countdown.signature.ty) (.cons .int (.int 3) .nil) .int)⟩

theorem target_declared : code.Declares target := ⟨closure, rfl, rfl⟩

theorem function_laidOut : function.LaidOut start.store.layouts := by
  intro id hid
  cases hid
  exact ⟨closure, by simp [start, Store.layouts, Frame.layout, closure, ClosureRef.id], rfl⟩

theorem start_typed : start.Typed code layout := by
  refine ⟨Frame.layout_allocate _, .allocate _, ?_⟩
  intro id frame hframe
  match id with
  | 0 =>
    cases hframe
    intro i s hs
    match i with
    | 0 => cases hs; exact ⟨rfl, target_declared, function_laidOut, fun _ => rfl⟩
    | 1 => cases hs; rfl
    | _ + 2 => cases hs
  | _ + 1 => cases hframe

theorem code_definesRecursion : code.DefinesRecursion := by
  intro b hb
  simp only [code, List.mem_toArray, List.mem_cons, List.not_mem_nil, Routine.user.injEq,
    or_false] at hb
  obtain rfl | rfl := hb
  · exact ⟨⟨trivial, trivial⟩, trivial, trivial, ⟨trivial, trivial⟩, trivial⟩
  · exact ⟨trivial, trivial, trivial⟩

theorem code_accepted (good : Function → Prop) : code.Accepted good := by
  intro b hb
  simp only [code, List.mem_toArray, List.mem_cons, List.not_mem_nil, Routine.user.injEq,
    or_false] at hb
  obtain rfl | rfl := hb
  · exact ⟨rfl, ⟨rfl, trivial⟩, rfl, rfl, rfl, ⟨rfl, trivial⟩, trivial⟩
  · exact ⟨rfl, rfl, rfl, trivial⟩

theorem tree_accepted {good : Function → Prop} (h : good function) :
    tree.node.Accepted code good layout :=
  ⟨⟨rfl, h, rfl, ⟨rfl, holderClosure, rfl, rfl⟩, trivial⟩, rfl, rfl, trivial, trivial⟩

/-- **Types and layouts alone are not enough.** All premises of soundness hold but that the constant
is no self-reference, and the evaluation reads a slot outside a closure. -/
theorem eval_defect :
    start.Typed code layout ∧
    code.Accepted (fun f => code.Declares f.target ∧ f.LaidOut start.store.layouts) ∧
    code.DefinesRecursion ∧
    tree.node.Accepted code (fun f => code.Declares f.target ∧ f.LaidOut start.store.layouts)
      layout ∧
    tree.node.DefinesRecursion ∧
    (code.eval 9 tree start).1 = .error (.fault (.defect (.slotOutside 1 1)) []) :=
  ⟨start_typed, code_accepted _, code_definesRecursion,
    tree_accepted ⟨target_declared, function_laidOut⟩,
    ⟨⟨trivial, trivial, trivial⟩, trivial, trivial, trivial⟩,
    by with_unfolding_all rfl⟩

end Stray

end TypedEval
