import Mathlib.Data.Set.Insert
import TypedEval.Call

/-!
# Evaluation that follows functions

`Code.trace` evaluates as `Code.eval` does and keeps beside the state where functions come from. Each
evaluation of a definition makes an **instance**, and so does a recursive binding that gives a function
the closure it did not have. Instances are numbered in the order in which they are made.

Beside each value stand its **origins**: for the functions that may be in it, what they come from.
They go where the value goes: into a slot and out of it, from a frame into a closure and from a
closure into the frame of a call, to a parameter, and back with a result. A host function is followed
from outside only: what it hands on comes from where it was given.

The **ledger** lists the instances and all that was passed from hand to hand. Nothing in the evaluation
depends on what is kept beside it: it is the plain one (`Code.trace_eval`).
-/

namespace TypedEval

/-! ## Origins -/

/-- **What a function comes from.** -/
inductive Source where
  /-- It was there before: in the state that evaluation starts from, as a constant, or in the hands of
  a host function that was not given it. -/
  | outside
  /-- The instance with a number. -/
  | made (k : Nat)

/-- **Where functions come from**: the functions that may be in a value, each with a source. -/
abbrev Origins := Set (Function × Source)

/-- The origins of what each slot of a frame holds. -/
abbrev Labels := Nat → Origins

namespace Origins

/-- Everything comes from outside. -/
def outside : Origins := {p | p.2 = .outside}

/-- The origins of a function that stands for another one. -/
def standing (os : Origins) (f g : Function) : Origins := {p | p.1 = g ∧ (f, p.2) ∈ os}

/-- The origins of what a host function hands on when it was given these. -/
def handedOn (given : Origins) : Origins :=
  given ∪ {p | p.2 = .outside ∧ ∀ s, (p.1, s) ∉ given}

end Origins

namespace Labels

/-- No slot holds anything. -/
def none : Labels := fun _ => ∅

/-- Copied slots take their origins along, in the order of the copies. -/
def carry (source : Labels) : List Transfer → Labels → Labels
  | [], target => target
  | t :: ts, target => carry source ts (Function.update target t.target (source t.source))

/-- Written arguments take their origins along. -/
def params : List Nat → List Origins → Labels → Labels
  | slot :: slots, os :: rest, labels => params slots rest (Function.update labels slot os)
  | _, _, labels => labels

end Labels

/-- The origins of what is disclosed of a slot of the closure `id`: those of what it holds, which is a
shared reference to that closure in place of a self-reference. -/
def Slot.disclosed (s : Slot) (id : Nat) (os : Origins) : Origins :=
  match s.cell with
  | .reference (.function f) =>
    if s.ty.isFunction && f.isSelfReference then os.standing f (f.withClosure id) else os
  | _ => os

/-- The same of every slot of a closure. -/
def Frame.disclosed (closure : Frame) (id : Nat) (labels : Labels) : Labels := fun i =>
  match closure.slots[i]? with
  | some s => s.disclosed id (labels i)
  | none => ∅

/-! ## The ledger -/

/-- **An instance**: a function as a definition gave it, or as a recursive binding gave it a closure. -/
inductive Instance where
  | defined (target : Target) (capture : Capture) (f : Function)
  | bound (f : Function)

namespace Instance

/-- The function that was made. -/
def function : Instance → Function
  | .defined _ _ f | .bound f => f

/-- The target that was instantiated. -/
def target : Instance → Target
  | .defined t _ _ => t
  | .bound f => f.target

/-- Nothing was captured, by a definition that is not bound recursively as it stands. -/
def Bare : Instance → Prop
  | .defined _ capture _ => capture.transfers = []
  | .bound _ => False

end Instance

/-- **What was kept beside a run.** -/
structure Ledger where
  /-- The origins of what the slots of closures hold. -/
  closures : Nat → Labels
  /-- What was made, in order. -/
  instances : List Instance
  /-- What was read from slots, made by definitions, called, passed to calls, and returned. -/
  passed : List (Value × Origins)

namespace Ledger

/-- Nothing was made yet. -/
def start : Ledger := ⟨fun _ _ => .outside, [], []⟩

/-- The source that the next instance will be. -/
def next (l : Ledger) : Source := .made l.instances.length

/-- An instance was made. -/
def make (l : Ledger) (x : Instance) : Ledger := { l with instances := l.instances ++ [x] }

/-- Values were passed. -/
def pass (l : Ledger) (vs : List (Value × Origins)) : Ledger := { l with passed := l.passed ++ vs }

/-- The slots of a closure hold other things. -/
def setClosure (l : Ledger) (id : Nat) (labels : Labels) : Ledger :=
  { l with closures := Function.update l.closures id labels }

end Ledger

/-- **A state with its ledger.** -/
structure Traced (σ : Type) where
  state : σ
  ledger : Ledger

/-- **An activation** with the origins of what its frame holds. -/
structure Labelled where
  activation : Activation
  slots : Labels

/-- Where evaluation starts: all that is there comes from outside. -/
def Traced.start (a : Activation) : Traced Labelled := ⟨⟨a, fun _ => .outside⟩, .start⟩

/-! ## Operations -/

namespace Traced

variable {σ α : Type}

/-- An operation that makes and passes nothing. -/
def plain (m : Run σ α) : Run (Traced σ) α :=
  Run.focus Traced.state (fun w s => { w with state := s }) m

/-- The same in an activation, whose slots it leaves alone. -/
def act (m : Run Activation α) : Run (Traced Labelled) α :=
  plain (Run.focus Labelled.activation (fun s a => { s with activation := a }) m)

/-- Writes to the ledger. -/
def note (f : Ledger → Ledger) : Run (Traced σ) Unit := fun w =>
  (.ok (), { w with ledger := f w.ledger })

/-- Makes an instance. -/
def make (x : Instance) : Run (Traced σ) Origins := fun w =>
  (.ok {(x.function, w.ledger.next)}, { w with ledger := w.ledger.make x })

/-- Runs on the store of an activation. -/
def onStore (m : Run (Traced Store) α) : Run (Traced Labelled) α :=
  Run.focus (fun w => ⟨w.state.activation.store, w.ledger⟩)
    (fun w t => ⟨{ w.state with activation := { w.state.activation with store := t.state } },
      t.ledger⟩) m

/-- The origins of what a slot holds. -/
def origins (slot : Nat) : Run (Traced Labelled) Origins := fun w => (.ok (w.state.slots slot), w)

/-- Says where what a slot holds comes from. -/
def label (slot : Nat) (os : Origins) : Run (Traced Labelled) Unit := fun w =>
  (.ok (), { w with state := { w.state with slots := Function.update w.state.slots slot os } })

/-- Reads a slot. -/
def read (family : Family) (slot : Nat) : Run (Traced Labelled) (Carrier family × Origins) := do
  let x ← act (Activation.readFrame (·.readAs family slot))
  let os ← origins slot
  note (·.pass [(family.box x, os)])
  return (x, os)

/-- Writes a slot. -/
def write (slot : Nat) (family : Family) (x : Carrier family) (os : Origins) :
    Run (Traced Labelled) Unit := do
  act (Activation.updateFrame (·.writeAs slot family x))
  label slot os

/-- **Makes the instance of a definition**, whose closure takes over the origins of what it captures. -/
def define (target : Target) (capture : Capture) : Run (Traced Labelled) (Function × Origins) :=
    fun w =>
  match instantiate target capture w.state.activation with
  | (.error h, a) => (.error h, { w with state := { w.state with activation := a } })
  | (.ok f, a) =>
    let os : Origins := {(f, w.ledger.next)}
    let captured := Labels.carry w.state.slots capture.transfers .none
    let closure := w.state.activation.store.closures.size
    (.ok (f, os), ⟨{ w.state with activation := a },
      ((w.ledger.setClosure closure captured).make (.defined target capture f)).pass
        [(.function f, os)]⟩)

/-- The closure of the function in a slot. One that is made for it makes it another instance. -/
def ensure (slot : Nat) (f : Function) (os : Origins) :
    Run (Traced Labelled) (Nat × Function × Origins) := do
  match ← act (Run.read fun (a : Activation) => f.closureIn a.store) with
  | some (id, _) => return (id, f, os)
  | none =>
    match f.target.closure with
    | none =>
      let s ← act (Activation.readFrame fun frame => frame.slot slot)
      act (Run.fault (.defect (.recursiveBuiltin s.name)))
    | some layout =>
      let id ← act (Activation.onStore fun s =>
        match s.addClosure (.allocate layout) with
        | (id, s) => (.ok id, s))
      let f := f.withClosure id
      let os ← make (.bound f)
      write slot .function f os
      return (id, f, os)

/-- Writes a function into its own closure. -/
def keepSelf (id : Nat) (closureSlot : Nat) (f : Function) (os : Origins) :
    Run (Traced Labelled) Unit := do
  act (Activation.onStore (writeSelf id closureSlot f))
  note fun l => l.setClosure id
    (Function.update (l.closures id) closureSlot (os.standing f f.selfReference))

/-- Ties the knot of a recursive binding. -/
def tie (slot closureSlot : Nat) : Run (Traced Labelled) Unit := do
  let f ← act (Activation.readFrame (·.readFunction slot))
  let os ← origins slot
  let (id, f, os) ← ensure slot f os
  keepSelf id closureSlot f os

end Traced

open Traced

/-! ## Nodes -/

/-- **A way to call functions that follows them.** -/
abbrev Tracer := Function → Origins → List (Value × Origins) → Run (Traced Store) (Value × Origins)

/-- Calls a function and checks the family of its result. -/
def traceChecked (call : Tracer) (f : Function) (os : Origins) (args : List (Value × Origins))
    (result : Ty) : Run (Traced Labelled) (Value × Origins) := do
  let (v, ps) ← onStore (call f os args)
  if v.family = result.family then return (v, ps)
  else act (Run.fault (.assertion (.callResult f.text)))

mutual

/-- **Evaluates a node**, with the origins of what it hands over. -/
def Node.trace (call : Tracer) :
    {family : Family} → Node family → Run (Traced Labelled) (Carrier family × Origins)
  | _, .bool b => pure (b, ∅)
  | _, .int n => pure (n, ∅)
  | _, .float x => pure (x, ∅)
  | _, .function f => pure (f, .outside)
  | _, .constant v => pure (v, .outside)
  | family, .read slot _ => Traced.read family slot
  | _, .not a => do
    let (x, _) ← a.trace call
    return (!x, ∅)
  | _, .logic op a b => do
    let (x, _) ← a.trace call
    match op.decided? x with
    | some r => return (r, ∅)
    | none =>
      let (y, _) ← b.trace call
      return (op.apply x y, ∅)
  | _, .compareInt op a b => do
    let (x, _) ← a.trace call
    let (y, _) ← b.trace call
    return (op.applyInt x y, ∅)
  | _, .compareFloat op a b => do
    let (x, _) ← a.trace call
    let (y, _) ← b.trace call
    return (op.applyFloat x y, ∅)
  | _, .negateInt a => do
    let (x, _) ← a.trace call
    return (← act (Run.check (TypedEval.negateInt x)), ∅)
  | _, .arithInt op a b => do
    let (x, _) ← a.trace call
    let (y, _) ← b.trace call
    return (← act (Run.check (op.apply x y)), ∅)
  | _, .negateFloat a => do
    let (x, _) ← a.trace call
    return (-x, ∅)
  | _, .arithFloat op a b => do
    let (x, _) ← a.trace call
    let (y, _) ← b.trace call
    return (op.apply x y, ∅)
  | _, .cond test a b => do
    let (x, _) ← test.trace call
    if x then a.trace call else b.trace call
  | _, .block bindings body => do
    bindings.trace call
    body.trace call
  | family, .call callee args result => do
    let (f, os) ← callee.trace call
    let values ← args.trace call
    let (v, ps) ← traceChecked call f os values result
    return (← act (Run.check (family.unbox v)), ps)
  | family, .index seq i _ => do
    let (value, os) ← seq.trace call
    let view ← act (Run.check value.expectView)
    let (k, _) ← i.trace call
    return (← act (Run.check (view.getAs family k)), os)
  | _, .slice seq slicer => do
    let (value, os) ← seq.trace call
    let view ← act (Run.check value.expectView)
    let (value, _) ← slicer.trace call
    let range ← act (Run.check value.expectRange)
    let range ← act (Run.check range.expectInt)
    return (.slice (← act (Run.check (view.slice range))), os)
  | _, .array element items => do
    let (builder, os) ← items.traceFill call (.new element) ∅
    let id ← act (Activation.onStore Store.newStorage)
    return (.array (builder.finish id), os)
  | _, .intRange first last step => do
    let first ← first.trace call
    let last ← last.trace call
    let step ← step.trace call
    return (.range (.int (← act (Run.check (IntRange.make first last step)))), ∅)
  | _, .floatRange first last step => do
    let first ← first.trace call
    let last ← last.trace call
    let step ← step.trace call
    return (.range (.float (← act (Run.check (FloatRange.make first last step)))), ∅)
  | _, .define target capture => Traced.define target capture

/-- Evaluates nodes in order, each with its origins. -/
def Nodes.trace (call : Tracer) : Nodes → Run (Traced Labelled) (List (Value × Origins))
  | .nil => pure []
  | .cons family n ns => do
    let (x, os) ← n.trace call
    let rest ← ns.trace call
    return (family.box x, os) :: rest

/-- Evaluates the elements of an array into a builder, with the origins of all of them. -/
def Nodes.traceFill (call : Tracer) :
    Nodes → Builder → Origins → Run (Traced Labelled) (Builder × Origins)
  | .nil, b, os => pure (b, os)
  | .cons family n ns, b, os => do
    let (x, ps) ← n.trace call
    let b ← act (Run.check (b.pushAs family x))
    ns.traceFill call b (os ∪ ps)

/-- Evaluates a part of a range if it is there. -/
def Part.trace (call : Tracer) :
    {family : Family} → Part family → Run (Traced Labelled) (Option (Carrier family))
  | _, .none => pure none
  | _, .some n => do
    let (x, _) ← n.trace call
    return some x

/-- Executes bindings in order. -/
def Bindings.trace (call : Tracer) : Bindings → Run (Traced Labelled) Unit
  | .nil => pure ()
  | .bind family slot n rest => do
    let (x, os) ← n.trace call
    write slot family x os
    rest.trace call
  | .bindRec slot n closureSlot rest => do
    let (f, os) ← n.trace call
    write slot .function f os
    tie slot closureSlot
    rest.trace call

end

/-- Evaluates a node of any family and boxes the result. -/
def AnyNode.trace (call : Tracer) (n : AnyNode) : Run (Traced Labelled) (Value × Origins) := do
  let (x, os) ← n.node.trace call
  return (n.family.box x, os)

/-! ## Calls -/

/-- Runs a script of the host, which was given functions of these origins. -/
def Script.trace (call : Tracer) (given : Origins) :
    Script Value → Run (Traced Store) (Value × Origins)
  | .done v => pure (v, given.handedOn)
  | .fail f => plain (Run.fault f)
  | .newStorage next => do
    let id ← plain Store.newStorage
    (next id).trace call given
  | .resolve f next => do
    let _ ← plain (Run.read fun (s : Store) => f.closureIn s)
    next.trace call given
  | .call f args next => do
    let (v, os) ← call f given.handedOn (args.map fun v => (v, given.handedOn))
    (next v).trace call (given ∪ os)

/-- The origins of what is in the frame of a call when its body starts. -/
def Body.labels (b : Body) (closures : Nat → Labels) (closure : Option (Nat × Frame))
    (args : List Origins) : Labels :=
  Labels.params b.params args <|
    match closure with
    | none => .none
    | some (id, frame) => Labels.carry (frame.disclosed id (closures id)) b.disclosure .none

/-- Runs a body in a fresh frame. -/
def Body.trace (b : Body) (call : Tracer) (closure : Option (Nat × Frame))
    (args : List (Value × Origins)) : Run (Traced Store) (Value × Origins) := fun w =>
  match b.enter closure (args.map Prod.fst) (.allocate b.frame) with
  | (.error h, _) => (.error h, w)
  | (.ok (), frame) =>
    let labels := b.labels w.ledger.closures closure (args.map Prod.snd)
    match b.node.trace call ⟨⟨⟨frame, w.state⟩, labels⟩, w.ledger⟩ with
    | (r, u) => (r, ⟨u.state.activation.store, u.ledger⟩)

/-- Runs the code of a function. -/
def Routine.trace (r : Routine) (call : Tracer) (name : String) (closure : Option (Nat × Frame))
    (args : List (Value × Origins)) : Run (Traced Store) (Value × Origins) :=
  match r with
  | .user body => body.trace call closure args
  | .native script =>
    match closure with
    | some _ => plain (Run.fault (.defect (.builtinClosure name)))
    | none => (script (args.map Prod.fst)).trace call (args.foldr (fun a given => a.2 ∪ given) ∅)

/-- Runs the code that a function stands for, with its closure. -/
def Code.traceEnter (code : Code) (call : Tracer) (f : Function) (args : List (Value × Origins)) :
    Run (Traced Store) (Value × Origins) := do
  let closure ← plain (Run.read fun (s : Store) => f.closureIn s)
  match code.routine? f.target with
  | none => plain (Run.fault (.defect (.lostCode f.displayName)))
  | some routine => routine.trace call f.displayName closure args

/-- **Calls a function** and follows it, its arguments and its result. -/
def Code.tracer (code : Code) : (depth : Nat) → Tracer
  | 0, _, _, _ => Run.halt .exhausted
  | depth + 1, f, os, args => do
    note (·.pass ((.function f, os) :: args))
    let (v, ps) ← (code.traceEnter (code.tracer depth) f args).mapHalt (Halt.within f.displayName)
    note (·.pass [(v, ps)])
    return (v, ps)

/-- **Evaluates a node of any family** and follows every function on its way. -/
def Code.trace (code : Code) (depth : Nat) (n : AnyNode) :
    Run (Traced Labelled) (Value × Origins) := do
  let (v, os) ← n.trace (code.tracer depth)
  note (·.pass [(v, os)])
  return (v, os)

end TypedEval
