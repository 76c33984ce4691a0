import TypedEval.Proofs.Frame.Representation

/-!
# What a body starts with

Three loops bring variables from a definition to a call of it: the capture copies slots of the
defining frame into a closure, the disclosure copies slots of the closure into the frame of the call,
and the arguments are written to the parameter slots. Each list may go to one slot more than once.

All three write cells in order, so each is `Frame.setCells` of a list of writes, and the last write
to a slot counts (`slot_setCells`). The law (`Code.call_definition`) reads the lists backwards: a slot
of the call holds the last argument that goes there, else what the defining frame held in the source
that the last disclosure and the last capture lead back to, else nothing.
-/

namespace TypedEval

/-! ## The last entry of a list -/

/-- What stands last under a number in a list of pairs. -/
def lastUnder {α : Type} (pairs : List (Nat × α)) (i : Nat) : Option α :=
  (pairs.filter (·.1 = i)).getLast?.map Prod.snd

section

variable {α β : Type}

theorem lastUnder_append (ps qs : List (Nat × α)) (i : Nat) :
    lastUnder (ps ++ qs) i = (lastUnder qs i).or (lastUnder ps i) := by
  simp only [lastUnder, List.filter_append, List.getLast?_append]
  cases (qs.filter (·.1 = i)).getLast? <;> rfl

theorem lastUnder_cons (p : Nat × α) (ps : List (Nat × α)) (i : Nat) :
    lastUnder (p :: ps) i = (lastUnder ps i).or (if p.1 = i then some p.2 else none) := by
  rw [← List.singleton_append, lastUnder_append]
  by_cases h : p.1 = i <;> simp [lastUnder, h]

theorem lastUnder_map (g : α → β) (ps : List (Nat × α)) (i : Nat) :
    lastUnder (ps.map fun p => (p.1, g p.2)) i = (lastUnder ps i).map g := by
  simp [lastUnder, List.filter_map, Function.comp_def]

theorem mem_of_lastUnder {ps : List (Nat × α)} {i : Nat} {a : α} (h : lastUnder ps i = some a) :
    (i, a) ∈ ps := by
  simp only [lastUnder, Option.map_eq_some_iff] at h
  obtain ⟨⟨j, b⟩, hlast, rfl⟩ := h
  have hmem := List.mem_of_getLast? hlast
  simp only [List.mem_filter, decide_eq_true_eq] at hmem
  obtain ⟨hmem, rfl⟩ := hmem
  exact hmem

end

/-! ## Writes in order -/

namespace Frame

/-- What a slot holds; nothing outside of the frame. -/
def cellAt (f : Frame) (i : Nat) : Cell := (f.slots[i]?.map Slot.cell).getD .undefined

/-- The frame with cells written in order. -/
def setCells (f : Frame) (writes : List (Nat × Cell)) : Frame :=
  writes.foldl (fun f w => f.setCell w.1 w.2) f

variable {f : Frame} {i : Nat} {s : Slot}

theorem cellAt_of_slot (h : f.slots[i]? = some s) : f.cellAt i = s.cell := by
  simp [cellAt, h]

@[simp] theorem layout_setCells (f : Frame) (ws : List (Nat × Cell)) :
    (f.setCells ws).layout = f.layout := by
  induction ws generalizing f with
  | nil => rfl
  | cons w ws ih => exact (ih _).trans (layout_setCell ..)

theorem setCells_append (f : Frame) (vs ws : List (Nat × Cell)) :
    f.setCells (vs ++ ws) = (f.setCells vs).setCells ws :=
  List.foldl_append ..

/-- **The last write to a slot counts.** -/
theorem slot_setCells (f : Frame) (ws : List (Nat × Cell)) (i : Nat) :
    (f.setCells ws).slots[i]? =
      f.slots[i]?.map fun s => { s with cell := (lastUnder ws i).getD s.cell } := by
  induction ws generalizing f with
  | nil => simp [setCells, lastUnder]
  | cons w ws ih =>
    show ((f.setCell w.1 w.2).setCells ws).slots[i]? = _
    rw [ih, lastUnder_cons]
    by_cases hw : w.1 = i
    · subst hw
      cases hs : f.slots[w.1]? with
      | none => simp [setCell, Array.getElem?_modify, hs]
      | some s =>
        rw [slot_setCell_self w.2 hs]
        cases lastUnder ws w.1 <;> simp
    · rw [slot_setCell_ne w.2 hw, if_neg hw]
      simp

/-- What a fresh frame holds after writes. -/
theorem cell_of_allocate_setCells {l : Layout} {ws : List (Nat × Cell)}
    (h : ((allocate l).setCells ws).slots[i]? = some s) :
    s.cell = (lastUnder ws i).getD .undefined := by
  rw [slot_setCells, Option.map_eq_some_iff] at h
  obtain ⟨t, ht, rfl⟩ := h
  rw [cell_of_allocate ht]

/-- No slot of the frame holds a self-reference. -/
def WithoutSelfReferences (f : Frame) : Prop :=
  ∀ (i : Nat) (k : Function), f.cellAt i = .reference (.function k) → k.isSelfReference = false

end Frame

/-! ## The three loops -/

/-- The sources of transfers, under their targets. -/
def transferPairs (ts : List Transfer) : List (Nat × Nat) := ts.map fun t => (t.target, t.source)

/-- The cells that transfers copy out of a frame, under their targets. -/
def copied (source : Frame) (ts : List Transfer) : List (Nat × Cell) :=
  (transferPairs ts).map fun p => (p.1, source.cellAt p.2)

/-- **Captured slots are written in order.** -/
theorem copySlots_eq {source target : Frame} (ts : List Transfer)
    (hts : ∀ t ∈ ts, ∃ ty, source.layout.Declares t.source ty ∧ target.layout.Declares t.target ty) :
    copySlots source ts target = .ok (target.setCells (copied source ts)) := by
  induction ts generalizing target with
  | nil => rfl
  | cons t ts ih =>
    obtain ⟨⟨ty, hfrom, hto⟩, hrest⟩ := List.forall_mem_cons.mp hts
    obtain ⟨here, hhere, rfl⟩ := Frame.slot_of_declares hfrom
    obtain ⟨there, hthere, hty⟩ := Frame.slot_of_declares hto
    have step := Frame.copySlot_of_slots hhere hthere hty
    rw [← Frame.cellAt_of_slot hhere] at step
    simp only [copySlots, step, ok_bind]
    exact ih (by simpa only [Frame.layout_setCell] using hrest)

section

variable {closure frame : Frame} (hshape : closure.Shaped) (hself : closure.WithoutSelfReferences)

include hself in
/-- Without self-references disclosure copies. -/
theorem Frame.WithoutSelfReferences.disclosed {i : Nat} (id : Nat) :
    (closure.cellAt i).disclosed id = closure.cellAt i := by
  unfold Cell.disclosed
  split
  · next k hk => simp [hself i k hk, hk]
  · rfl

include hshape hself in
/-- **Disclosed slots are written in order.** -/
theorem discloseSlots_eq (id : Nat) (ts : List Transfer)
    (hts : ∀ t ∈ ts, ∃ ty, closure.layout.Declares t.source ty ∧ frame.layout.Declares t.target ty) :
    discloseSlots id closure ts frame = (.ok (), frame.setCells (copied closure ts)) := by
  induction ts generalizing frame with
  | nil => rfl
  | cons t ts ih =>
    obtain ⟨⟨ty, hfrom, hto⟩, hrest⟩ := List.forall_mem_cons.mp hts
    obtain ⟨here, hhere, rfl⟩ := Frame.slot_of_declares hfrom
    obtain ⟨there, hthere, hty⟩ := Frame.slot_of_declares hto
    have step := discloseSlot_of_shaped id hhere hthere hty (hshape _ _ hhere)
    rw [← Frame.cellAt_of_slot hhere, hself.disclosed] at step
    rw [discloseSlots, Run.bind_ok (Run.update_ok_iff (u := ()) |>.mpr step)]
    exact ih (by simpa only [Frame.layout_setCell] using hrest)

end

/-- **Arguments are written in order.** -/
theorem writeParams_eq {slots : List Nat} {tys : List Ty} {args : List Value} {frame : Frame}
    (hchecked : FunctionSpec.checkParams frame.layout slots tys = .ok ())
    (hlength : tys.length = slots.length) (hargs : args.map Value.ty = tys) :
    writeParams slots args frame =
      (.ok (), frame.setCells ((slots.zip args).map fun p => (p.1, p.2.cell))) := by
  induction slots generalizing tys args frame with
  | nil => cases args <;> rfl
  | cons slot slots ih =>
    subst hargs
    cases args with
    | nil => cases hlength
    | cons v vs =>
      obtain ⟨_, hslot, hrest⟩ := bind_eq_ok.mp hchecked
      obtain ⟨s, hs, hty⟩ := Frame.slot_of_declares (Layout.expectSlot_eq_ok.mp hslot)
      have step := Frame.writeValue_of_slot hs hty
      rw [writeParams, Run.bind_ok (Run.update_ok_iff (u := ()) |>.mpr step)]
      exact ih (by simpa only [Frame.layout_setCell] using hrest) (Nat.succ.inj hlength) rfl

/-! ## Capture -/

namespace Capture

/-- **What a definition captures** in a slot of the closure: what the enclosing frame holds in the
source of the last transfer into the slot. -/
def cell (c : Capture) (enclosing : Frame) (slot : Nat) : Cell :=
  match lastUnder (transferPairs c.transfers) slot with
  | some source => enclosing.cellAt source
  | none => .undefined

/-- A closure holds what was captured, slot by slot. -/
structure Yields (c : Capture) (enclosing closure : Frame) : Prop where
  layout : closure.layout = c.closure
  cells : ∀ (i : Nat) (s : Slot), closure.slots[i]? = some s → s.cell = c.cell enclosing i

variable {capture : Capture} {enclosing closure : Frame}

/-- A slot that nothing is transferred to is captured as undefined. -/
theorem target_of_cell {slot : Nat} (h : (capture.cell enclosing slot).isDefined = true) :
    slot ∈ capture.transfers.map Transfer.target := by
  unfold cell at h
  split at h
  · next source hlast =>
    obtain ⟨t, ht, heq⟩ := List.mem_map.mp (mem_of_lastUnder hlast)
    exact List.mem_map.mpr ⟨t, ht, congrArg Prod.fst heq⟩
  · cases h

/-- What was captured is undefined, or the enclosing frame holds it in a slot of the type. -/
theorem cell_cases {slot : Nat} {ty : Ty}
    (hts : checkTransfers enclosing.layout capture.closure capture.transfers = .ok ())
    (hty : capture.closure.Declares slot ty) :
    capture.cell enclosing slot = .undefined ∨ ∃ (i : Nat) (s : Slot),
      enclosing.slots[i]? = some s ∧ s.ty = ty ∧ capture.cell enclosing slot = s.cell := by
  unfold cell
  split
  · next source hlast =>
    obtain ⟨t, ht, heq⟩ := List.mem_map.mp (mem_of_lastUnder hlast)
    cases heq
    obtain ⟨u, hfrom, hto⟩ := checkTransfers_eq_ok.mp hts t ht
    obtain ⟨s, hs, rfl⟩ := Frame.slot_of_declares hfrom
    exact .inr ⟨t.source, s, hs, hto.unique hty, Frame.cellAt_of_slot hs⟩
  · exact .inl rfl

/-- **The closure that a definition makes.** -/
theorem snapshot_yields
    (hts : checkTransfers enclosing.layout capture.closure capture.transfers = .ok ()) :
    ∃ closure, capture.snapshot enclosing = .ok closure ∧ capture.Yields enclosing closure := by
  have declared := checkTransfers_eq_ok.mp hts
  refine ⟨_, copySlots_eq capture.transfers (by simpa using declared), by simp, ?_⟩
  intro i s hs
  rw [Frame.cell_of_allocate_setCells hs, copied, lastUnder_map]
  unfold cell
  cases lastUnder (transferPairs capture.transfers) i <;> rfl

theorem Yields.shaped (h : capture.Yields enclosing closure) (hf : enclosing.Shaped)
    (hts : checkTransfers enclosing.layout capture.closure capture.transfers = .ok ()) :
    closure.Shaped := by
  intro i s hs
  have hty : capture.closure.Declares i s.ty := h.layout ▸ Frame.declares_of_slot hs
  rw [h.cells i s hs]
  obtain hnone | ⟨j, t, ht, hsame, heq⟩ := cell_cases hts hty
  · rw [hnone]
    trivial
  · rw [heq, ← hsame]
    exact hf j t ht

theorem Yields.withoutSelfReferences (h : capture.Yields enclosing closure)
    (hf : enclosing.WithoutSelfReferences) : closure.WithoutSelfReferences := by
  intro i k hk
  cases hs : closure.slots[i]? with
  | none => simp [Frame.cellAt, hs] at hk
  | some s =>
    rw [Frame.cellAt_of_slot hs, h.cells i s hs] at hk
    unfold cell at hk
    split at hk
    · exact hf _ k hk
    · cases hk

end Capture

/-! ## The start of a body -/

namespace Body

/-- **What a body starts with** in a slot of its frame: the last argument that goes there, else the
slot of the closure that the last disclosure names. -/
def startCell (b : Body) (closure : Nat → Cell) (args : List Value) (slot : Nat) : Cell :=
  match lastUnder (b.params.zip args) slot with
  | some v => v.cell
  | none =>
    match lastUnder (transferPairs b.disclosure) slot with
    | some source => closure source
    | none => .undefined

/-- A frame is what a body starts in, slot by slot. -/
structure StartsIn (b : Body) (closure : Nat → Cell) (args : List Value) (frame : Frame) :
    Prop where
  layout : frame.layout = b.frame
  cells : ∀ (i : Nat) (s : Slot), frame.slots[i]? = some s → s.cell = b.startCell closure args i

/-- Evaluates the body in the frame that it starts in. -/
def runIn (b : Body) (call : Caller) (frame : Frame) : Run Store Value := fun s =>
  match b.node.eval call ⟨frame, s⟩ with
  | (r, a) => (r, a.store)

variable {b : Body} {args : List Value}

theorem run_of_enter {call : Caller} {captured : Option (Nat × Frame)} {frame : Frame}
    (h : b.enter captured args (.allocate b.frame) = (.ok (), frame)) :
    b.run call captured args = b.runIn call frame := by
  funext s
  simp only [run, h, runIn]

/-- Only the slots that are disclosed count. -/
theorem startCell_congr {held more : Nat → Cell}
    (h : ∀ t ∈ b.disclosure, held t.source = more t.source) (i : Nat) :
    b.startCell held args i = b.startCell more args i := by
  unfold startCell
  cases lastUnder (b.params.zip args) i with
  | some v => rfl
  | none =>
    cases hlast : lastUnder (transferPairs b.disclosure) i with
    | none => rfl
    | some source =>
      obtain ⟨t, ht, heq⟩ := List.mem_map.mp (mem_of_lastUnder hlast)
      cases heq
      exact h t ht

/-- Disclosure, then arguments, each in order. -/
theorem startsIn_setCells (b : Body) (closure : Frame) (args : List Value) :
    b.StartsIn closure.cellAt args (((Frame.allocate b.frame).setCells
      (copied closure b.disclosure)).setCells
        ((b.params.zip args).map fun p => (p.1, p.2.cell))) := by
  refine ⟨by simp, fun i s hs => ?_⟩
  rw [← Frame.setCells_append] at hs
  rw [Frame.cell_of_allocate_setCells hs, lastUnder_append, lastUnder_map, copied, lastUnder_map]
  unfold startCell
  cases lastUnder (b.params.zip args) i <;>
    cases lastUnder (transferPairs b.disclosure) i <;> rfl

/-- **Entering a body** of a checked function without a closure, or with one that fits, gives the
frame that it starts in. -/
theorem enter_startsIn {closure : Frame} (captured : Option (Nat × Frame)) {name : Option String}
    {t : Target}
    (hcheck : FunctionSpec.check
      ⟨name, t.ty, b.frame, b.params, closure.layout, b.disclosure, b.node⟩ = .ok t.signature)
    (hcaptured : captured = none ∧ b.disclosure = [] ∨
      ∃ id, captured = some (id, closure) ∧ b.disclosure ≠ [])
    (hshape : closure.Shaped) (hself : closure.WithoutSelfReferences)
    (hargs : args.map Value.ty = t.signature.params) :
    ∃ frame, b.enter captured args (.allocate b.frame) = (.ok (), frame) ∧
      b.StartsIn closure.cellAt args frame := by
  obtain ⟨hlength, hparams, -, hts⟩ := FunctionSpec.check_eq_ok hcheck
  have disclosed : disclose b.disclosure captured (.allocate b.frame) =
      (.ok (), (Frame.allocate b.frame).setCells (copied closure b.disclosure)) := by
    obtain ⟨rfl, hnone⟩ | ⟨id, rfl, hsome⟩ := hcaptured
    · rw [hnone]
      rfl
    · have hne : b.disclosure.isEmpty = false := by simpa using hsome
      simp only [disclose, hne]
      exact discloseSlots_eq hshape hself id _ (by simpa using checkTransfers_eq_ok.mp hts)
  refine ⟨_, ?_, startsIn_setCells b closure args⟩
  have count : args.length = b.params.length := by
    rw [← hlength, ← hargs, List.length_map]
  unfold enter
  rw [Run.bind_ok disclosed, if_neg (not_not_intro count)]
  exact writeParams_eq (by simpa using hparams) hlength hargs

end Body

/-! ## From the definition to the call -/

/-- A call of a function whose closure is found runs the body from where it starts. -/
theorem Code.onStore_call {code : Code} {f : Function} {body : Body} {a : Activation}
    {captured : Option (Nat × Frame)} {args : List Value} {frame : Frame} (depth : Nat)
    (hbody : code.routine? f.target = some (.user body)) (hclosure : f.closureIn a.store = .ok captured)
    (h : body.enter captured args (.allocate body.frame) = (.ok (), frame)) :
    Activation.onStore (code.call (depth + 1) f args) a =
      Activation.onStore
        ((body.runIn (code.call depth) frame).mapHalt (Halt.within f.displayName)) a := by
  have looked : (Run.read fun t : Store => liftM (f.closureIn t)) a.store =
      (.ok captured, a.store) := by
    simp [Run.read, Run.check, hclosure]
  have entered : code.enter (code.call depth) f args a.store =
      body.runIn (code.call depth) frame a.store := by
    rw [Code.enter, Run.bind_ok looked, hbody, ← Body.run_of_enter h]
    rfl
  simp only [Activation.onStore, Run.focus, Code.call, Run.mapHalt, entered]

/-- **From a definition to a call.** Let a definition be accepted in a frame that holds no
self-reference, and let it capture where its target discloses. Evaluating it gives a function and
leaves the frame alone. The closure, made only where something is captured, holds what the frame held
in the last source of each slot, and nothing in a slot that is no target. Whenever the function is
called later, whatever was done to the frame in between, its body starts with the last argument of
each parameter slot, else what the last disclosure finds in the closure, else nothing. -/
theorem Code.call_definition (code : Code) (target : Target) (capture : Capture) (body : Body)
    (enclosing : Frame) (s : Store) (args : List Value)
    (hbody : code.routine? target = some (.user body)) (hdeclared : code.Declares target)
    (hdefined :
      Build.define enclosing.layout target capture.transfers = .ok (.define target capture))
    (hboth : capture.transfers = [] ↔ body.disclosure = [])
    (hshape : enclosing.Shaped) (hself : enclosing.WithoutSelfReferences)
    (hargs : args.map Value.ty = target.signature.params) :
    ∃ (made : Option Frame) (f : Function) (t : Store) (start : Frame),
      instantiate target capture ⟨enclosing, s⟩ = (.ok f, ⟨enclosing, t⟩) ∧
      f = ⟨target, made.map fun _ => .shared s.closures.size⟩ ∧
      t.closures.toList = s.closures.toList ++ made.toList ∧ t.storages = s.storages ∧
      (made = none ↔ capture.transfers = []) ∧
      (∀ closure, made = some closure → capture.Yields enclosing closure ∧
        ∀ (i : Nat) (slot : Slot), closure.slots[i]? = some slot → slot.cell.isDefined = true →
          i ∈ capture.transfers.map Transfer.target) ∧
      body.StartsIn (capture.cell enclosing) args start ∧
      ∀ (depth : Nat) (later : Activation), t.Extends later.store →
        Activation.onStore (code.call (depth + 1) f args) later =
          Activation.onStore
            ((body.runIn (code.call depth) start).mapHalt (Halt.within f.displayName)) later := by
  obtain ⟨hclosure, hts⟩ := Build.define_eq_ok hdefined
  obtain ⟨closure, hsnapshot, hyields⟩ := Capture.snapshot_yields hts
  have hcheck : FunctionSpec.check ⟨target.name, target.ty, body.frame, body.params, closure.layout,
      body.disclosure, body.node⟩ = .ok target.signature := by
    simp only [Code.Declares, hbody] at hdeclared
    obtain ⟨l, hl, hcheck⟩ := hdeclared
    rw [hclosure] at hl
    cases hl
    rw [hyields.layout]
    exact hcheck
  have hclosureShape := hyields.shaped hshape hts
  have hclosureSelf := hyields.withoutSelfReferences hself
  -- What is disclosed is declared in the closure, so it is what was captured.
  have disclosed (t : Transfer) (ht : t ∈ body.disclosure) :
      closure.cellAt t.source = capture.cell enclosing t.source := by
    obtain ⟨-, -, -, hpairs⟩ := FunctionSpec.check_eq_ok hcheck
    obtain ⟨ty, hfrom, -⟩ := checkTransfers_eq_ok.mp hpairs t ht
    obtain ⟨slot, hslot, -⟩ := Frame.slot_of_declares hfrom
    rw [Frame.cellAt_of_slot hslot, hyields.cells _ _ hslot]
  have targets (i : Nat) (slot : Slot) (hslot : closure.slots[i]? = some slot)
      (hdefined : slot.cell.isDefined = true) : i ∈ capture.transfers.map Transfer.target :=
    Capture.target_of_cell (hyields.cells i slot hslot ▸ hdefined)
  by_cases hempty : capture.transfers = []
  · obtain ⟨start, hstart, hstarts⟩ := Body.enter_startsIn none hcheck
      (.inl ⟨rfl, hboth.mp hempty⟩) hclosureShape hclosureSelf hargs
    refine ⟨none, ⟨target, none⟩, s, start, ?_, rfl, by simp, rfl, by simp [hempty],
      fun _ hno => (nomatch hno), ⟨hstarts.layout, fun i slot hslot => ?_⟩, fun depth later _ => ?_⟩
    · simp [instantiate, Capture.take, hempty]
    · rw [hstarts.cells i slot hslot, Body.startCell_congr disclosed]
    · exact Code.onStore_call depth hbody (Function.closureIn_of_none rfl) hstart
  · obtain ⟨start, hstart, hstarts⟩ := Body.enter_startsIn
      (some (s.closures.size, closure)) hcheck (.inr ⟨_, rfl, mt hboth.mpr hempty⟩) hclosureShape
      hclosureSelf hargs
    refine ⟨some closure, ⟨target, some (.shared s.closures.size)⟩, (s.addClosure closure).2, start,
      ?_, rfl, by simp [Store.addClosure], rfl, by simp [hempty], fun _ hmade => ?_,
      ⟨hstarts.layout, fun i slot hslot => ?_⟩, fun depth later hlater => ?_⟩
    · simp [instantiate, Capture.take, hempty, hsnapshot, Store.addClosure]
    · cases hmade
      exact ⟨hyields, targets⟩
    · rw [hstarts.cells i slot hslot, Body.startCell_congr disclosed]
    · have kept := hlater _ _ (s.getElem?_addClosure_self closure)
      exact Code.onStore_call depth hbody (Function.closureIn_of_some rfl kept) hstart

/-! ## Overlapping transfers -/

namespace Overlap

def frame : Frame :=
  ⟨#[⟨⟨"a", .int⟩, .int 1⟩, ⟨⟨"b", .int⟩, .int 2⟩, ⟨⟨"c", .int⟩, .undefined⟩]⟩

def closure : Layout := ⟨#[⟨"x", .int⟩, ⟨"y", .int⟩, ⟨"z", .int⟩]⟩

/-- Two slots are captured as `x`, and `z` is not captured at all. -/
def capture : Capture := ⟨closure, [⟨0, 0⟩, ⟨1, 0⟩, ⟨2, 1⟩]⟩

def target : Target := ⟨0, some "f", ⟨[.int, .int], .int⟩, some closure⟩

/-- Parameters and disclosures meet in slot 0, two disclosures in slot 1, two parameters in slot 2. -/
def body : Body where
  frame := ⟨#[⟨"p", .int⟩, ⟨"q", .int⟩, ⟨"r", .int⟩, ⟨"s", .int⟩, ⟨"t", .int⟩]⟩
  params := [0, 0]
  disclosure := [⟨1, 0⟩, ⟨1, 1⟩, ⟨0, 1⟩, ⟨0, 2⟩, ⟨1, 2⟩, ⟨2, 3⟩]
  node := ⟨.int, .read 0 .int⟩

def code : Code := ⟨#[.user body]⟩

def args : List Value := [.int 7, .int 8]

theorem frame_shaped : frame.Shaped := by
  intro i s hs
  match i with
  | 0 | 1 | 2 => cases hs; trivial
  | _ + 3 => cases hs

theorem frame_withoutSelfReferences : frame.WithoutSelfReferences := by
  intro i k hk
  match i with
  | 0 | 1 | 2 => cases hk
  | _ + 3 => cases hk

end Overlap

/-- The second argument counts in slot 0 and the second capture in slot 1; slot 2 is overwritten with
what was undefined, and nothing reaches the others. -/
theorem overlap_starts :
    [0, 1, 2, 3, 4].map (Overlap.body.startCell (Overlap.capture.cell Overlap.frame) Overlap.args) =
      [.int 8, .int 2, .undefined, .undefined, .undefined] ∧
    ∃ f t start,
      instantiate Overlap.target Overlap.capture ⟨Overlap.frame, .empty⟩ =
        (.ok f, ⟨Overlap.frame, t⟩) ∧
      Overlap.body.StartsIn (Overlap.capture.cell Overlap.frame) Overlap.args start ∧
      Activation.onStore (Overlap.code.call 1 f Overlap.args) ⟨Overlap.frame.setCell 1 (.int 9), t⟩ =
        Activation.onStore
          ((Overlap.body.runIn (Overlap.code.call 0) start).mapHalt (Halt.within "f"))
          ⟨Overlap.frame.setCell 1 (.int 9), t⟩ := by
  obtain ⟨made, f, t, start, hf, rfl, -, -, -, -, hstart, hcall⟩ :=
    Code.call_definition Overlap.code Overlap.target Overlap.capture Overlap.body Overlap.frame
      .empty Overlap.args rfl ⟨Overlap.closure, rfl, rfl⟩ (by with_unfolding_all rfl) (by decide)
      Overlap.frame_shaped Overlap.frame_withoutSelfReferences rfl
  exact ⟨rfl, _, t, start, hf, hstart, hcall 0 ⟨_, t⟩ (.refl t)⟩

end TypedEval
