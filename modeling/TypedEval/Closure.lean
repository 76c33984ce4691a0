import TypedEval.Frame
import TypedEval.Run

/-!
# Closures

When a function definition is evaluated, the slots it captures are copied out of the defining frame
into a fresh closure frame. When the function is called, they are copied back into the call's own
frame. A closure is a snapshot: later writes to the defining frame do not show in it.

A recursive binding needs the function inside its own closure. That is the one write a closure sees
after it was made (`tieKnot`). The copy kept there is a self-reference, and disclosure hands it out
as a shared reference again.

Closures live in a **store** and are named by their number there; the store only grows. It also
numbers the storages of arrays, which no guest program can observe.
-/

namespace TypedEval

/-- **What outlives a call**: the closures made so far, and how many storages were numbered. -/
structure Store where
  closures : Array Frame
  storages : Nat
  deriving Inhabited

namespace Store

/-- A store without closures. -/
def empty : Store := ⟨#[], 0⟩

/-- The store with one more closure, and its number. -/
def addClosure (s : Store) (frame : Frame) : Nat × Store :=
  (s.closures.size, { s with closures := s.closures.push frame })

/-- The store with another frame for a closure. -/
def setClosure (s : Store) (id : Nat) (frame : Frame) : Store :=
  { s with closures := s.closures.modify id fun _ => frame }

/-- A number for a new storage. -/
def newStorage : Run Store Nat := fun s => (.ok s.storages, { s with storages := s.storages + 1 })

end Store

/-- **An activation**: the frame of a call and the store. -/
structure Activation where
  frame : Frame
  store : Store
  deriving Inhabited

namespace Activation

/-- Runs on the store alone. -/
@[inline] def onStore {α : Type} (m : Run Store α) : Run Activation α :=
  Run.focus Activation.store (fun a store => { a with store }) m

/-- Replaces the frame, unless a check fails. -/
@[inline] def updateFrame (f : Frame → Except Fault Frame) : Run Activation Unit :=
  Run.focus Activation.frame (fun a frame => { a with frame }) (Run.update f)

/-- What the frame says. -/
@[inline] def readFrame {α : Type} (f : Frame → Except Fault α) : Run Activation α :=
  Run.read fun a => f a.frame

end Activation

/-! ## The closure of a function -/

/-- The number and the contents of the closure of a function, if it has one. -/
def Function.closureIn (f : Function) (s : Store) : Except Defect (Option (Nat × Frame)) :=
  match f.closureId? with
  | none => .ok none
  | some id =>
    match s.closures[id]? with
    | some frame => .ok (some (id, frame))
    | none => .error (.lostClosure f.displayName)

/-! ## Capture -/

/-- Copies slots in order, all or nothing. -/
def copySlots (source : Frame) : List Transfer → Frame → Except Fault Frame
  | [], target => .ok target
  | t :: ts, target => do copySlots source ts (← Frame.copySlot source t target)

/-- **What a definition captures**: the layout of its closures and the slots copied into them. -/
structure Capture where
  closure : Layout
  transfers : List Transfer
  deriving DecidableEq, Inhabited

namespace Capture

/-- Captures that fit the layout they are taken from. -/
def make (enclosing closure : Layout) (transfers : List Transfer) : Except Defect Capture := do
  checkTransfers enclosing closure transfers
  return ⟨closure, transfers⟩

/-- The contents of a closure captured from a frame. -/
def snapshot (c : Capture) (frame : Frame) : Except Fault Frame :=
  copySlots frame c.transfers (.allocate c.closure)

/-- Captures from a frame. Where nothing is captured no closure is made. -/
def take (c : Capture) (frame : Frame) : Run Store (Option Nat) := fun s =>
  if c.transfers.isEmpty then (.ok none, s)
  else
    match c.snapshot frame with
    | .error f => (.error (.fault f []), s)
    | .ok closure =>
      match s.addClosure closure with
      | (id, s) => (.ok (some id), s)

end Capture

/-! ## Disclosure -/

/-- Takes one slot out of a closure into a call frame. A self-reference is handed out as a shared
reference to the closure it was found in. -/
def discloseSlot (id : Nat) (closure : Frame) (t : Transfer) (frame : Frame) :
    Except Fault Frame := do
  let frame ← Frame.copySlot closure t frame
  let s ← frame.slot t.target
  if s.cell.isDefined && s.ty.isFunction then
    let f ← frame.readFunction t.target
    if f.isSelfReference then frame.writeFunction t.target (f.withClosure id) else return frame
  else return frame

/-- Takes slots out of a closure, in order. -/
def discloseSlots (id : Nat) (closure : Frame) : List Transfer → Run Frame Unit
  | [] => pure ()
  | t :: ts => do
    Run.update (discloseSlot id closure t)
    discloseSlots id closure ts

/-- **Disclosure at a call.** A function that captures nothing is called without a closure, every
other one with one. -/
def disclose (transfers : List Transfer) (closure : Option (Nat × Frame)) : Run Frame Unit :=
  match closure with
  | none =>
    if transfers.isEmpty then pure ()
    else Run.fault (.defect (.missingClosure transfers.length))
  | some (id, frame) =>
    if transfers.isEmpty then Run.fault (.defect .needlessClosure)
    else discloseSlots id frame transfers

/-! ## The recursive knot -/

/-- The closure of the function in a slot. A function that captured nothing has none yet; it gets a
fresh one and is written back with it. -/
def ensureClosure (slot : Nat) (f : Function) : Run Activation (Nat × Function) := do
  match ← (Run.read fun (a : Activation) => f.closureIn a.store) with
  | some (id, _) => return (id, f)
  | none =>
    match f.target.closure with
    | none =>
      let s ← Activation.readFrame fun frame => frame.slot slot
      Run.fault (.defect (.recursiveBuiltin s.name))
    | some layout =>
      let id ← Activation.onStore fun s =>
        match s.addClosure (.allocate layout) with
        | (id, s) => (.ok id, s)
      let f := f.withClosure id
      Activation.updateFrame (·.writeFunction slot f)
      return (id, f)

/-- Writes a function into its own closure. -/
def writeSelf (id : Nat) (closureSlot : Nat) (f : Function) : Run Store Unit :=
  Run.update fun s =>
    match s.closures[id]? with
    | none => .error (.defect (.lostClosure f.displayName))
    | some frame => return s.setClosure id (← frame.writeFunction closureSlot f.selfReference)

/-- **Ties the knot of a recursive binding**: the function in `slot` is put into `closureSlot` of
its own closure. -/
def tieKnot (slot closureSlot : Nat) : Run Activation Unit := do
  let f ← Activation.readFrame (·.readFunction slot)
  let (id, f) ← ensureClosure slot f
  Activation.onStore (writeSelf id closureSlot f)

end TypedEval
