import TypedEval.Proofs.Discipline
import TypedEval.Proofs.Typing.Admitted
import TypedEval.Proofs.Typing.Frames

/-!
# Typed closures

Capture, disclosure and the recursive knot keep stores typed. A captured closure holds what the
defining frame held, and no self-reference, since activations hold none. Disclosure turns the
self-references of a closure into shared references to it. The knot puts a self-reference into the
closure that it names.
-/

namespace TypedEval

/-! ## Stores -/

namespace Store

variable {code : Code} {s : Store} {id : Nat} {frame : Frame}

theorem getElem?_layouts (s : Store) (id : Nat) :
    s.layouts[id]? = (s.closures[id]?).map Frame.layout := by
  simp [layouts]

@[simp] theorem layouts_addClosure (s : Store) (frame : Frame) :
    (s.addClosure frame).2.layouts = s.layouts ++ [frame.layout] := by
  simp [layouts, addClosure]

theorem layouts_prefix_addClosure (s : Store) (frame : Frame) :
    s.layouts <+: (s.addClosure frame).2.layouts := by
  rw [layouts_addClosure]
  exact List.prefix_append _ _

/-- A closure that is typed as the next one keeps the store typed. -/
theorem Typed.addClosure (hs : s.Typed code)
    (hframe : frame.Typed code s.layouts (some s.closures.size)) :
    (s.addClosure frame).2.Typed code := by
  have grown := layouts_prefix_addClosure s frame
  intro id g hg
  simp only [Store.addClosure, Array.getElem?_push] at hg
  split at hg
  · next hid =>
    cases hg
    rw [hid]
    exact hframe.mono grown
  · exact (hs id g hg).mono grown

/-- Other contents of the same layout leave the layouts as they are. -/
theorem layouts_setClosure {g : Frame} (hold : s.closures[id]? = some frame)
    (hl : g.layout = frame.layout) : (s.setClosure id g).layouts = s.layouts := by
  apply List.ext_getElem?
  intro k
  rw [getElem?_layouts, getElem?_layouts]
  simp only [setClosure, Array.getElem?_modify]
  split
  · next hk => subst hk; rw [hold]; simp [hl]
  · rfl

/-- A closure that is typed in the place of one of the same layout keeps the store typed. -/
theorem Typed.setClosure (hs : s.Typed code) {g : Frame} (hold : s.closures[id]? = some frame)
    (hl : g.layout = frame.layout) (hg : g.Typed code s.layouts (some id)) :
    (s.setClosure id g).Typed code := by
  intro k h hk
  rw [layouts_setClosure hold hl]
  simp only [Store.setClosure, Array.getElem?_modify] at hk
  split at hk
  · next heq =>
    subst heq
    rw [hold] at hk
    cases hk
    exact hg
  · exact hs k h hk

end Store

namespace Function

variable {f : Function} {s : Store}

/-- The closure of a laid-out function is in the store, with the layout of its target. -/
theorem LaidOut.closure (hf : f.LaidOut s.layouts) {id : Nat} (hid : f.closureId? = some id) :
    ∃ frame, s.closures[id]? = some frame ∧ f.target.closure = some frame.layout := by
  obtain ⟨l, hl, htarget⟩ := hf id hid
  rw [Store.getElem?_layouts, Option.map_eq_some_iff] at hl
  obtain ⟨frame, hframe, rfl⟩ := hl
  exact ⟨frame, hframe, htarget⟩

/-- Looking up the closure of a laid-out function succeeds. -/
theorem LaidOut.closureIn (hf : f.LaidOut s.layouts) : ∃ r, f.closureIn s = .ok r := by
  cases hid : f.closureId? with
  | none => exact ⟨none, closureIn_of_none hid⟩
  | some id =>
    obtain ⟨frame, hframe, -⟩ := hf.closure hid
    exact ⟨some (id, frame), closureIn_of_some hid hframe⟩

end Function

/-! ## Capture -/

section Capture

variable {code : Code} {ls : List Layout} {h : Option Nat} {source target : Frame}

/-- Copying declared slots of an activation into a typed frame succeeds and keeps it typed. -/
theorem copySlots_typed (hs : source.Typed code ls none) (ht : target.Typed code ls h)
    (ts : List Transfer)
    (hts : ∀ t ∈ ts, ∃ ty, source.layout.Declares t.source ty ∧ target.layout.Declares t.target ty) :
    ∃ g, copySlots source ts target = .ok g ∧ g.layout = target.layout ∧ g.Typed code ls h := by
  induction ts generalizing target with
  | nil => exact ⟨target, rfl, rfl, ht⟩
  | cons t ts ih =>
    obtain ⟨ty, hfrom, hto⟩ := hts t List.mem_cons_self
    obtain ⟨here, hhere, rfl⟩ := Frame.slot_of_declares hfrom
    obtain ⟨there, hthere, hty⟩ := Frame.slot_of_declares hto
    have copied := Frame.copySlot_of_slots hhere hthere hty
    have typed : (target.setCell t.target here.cell).Typed code ls h := by
      refine ht.setCell fun s hslot => ?_
      rw [hthere] at hslot
      cases hslot
      rw [hty]
      exact (hs _ _ hhere).anywhere h
    obtain ⟨g, hg, hl, htyped⟩ := ih typed (fun u hu => by
      rw [Frame.layout_setCell]
      exact hts u (List.mem_cons_of_mem _ hu))
    refine ⟨g, ?_, hl.trans (Frame.layout_setCell ..), htyped⟩
    simp only [copySlots, copied]
    exact hg

/-- **What a definition captures is typed** in every closure. -/
theorem Capture.snapshot_typed {capture : Capture} (hs : source.Typed code ls none)
    (hts : checkTransfers source.layout capture.closure capture.transfers = .ok ()) :
    ∃ g, capture.snapshot source = .ok g ∧ g.layout = capture.closure ∧ g.Typed code ls h := by
  have declared := checkTransfers_eq_ok.mp hts
  obtain ⟨g, hg, hl, htyped⟩ := copySlots_typed (h := h) hs (.allocate capture.closure)
    capture.transfers (by simpa only [Frame.layout_allocate] using declared)
  exact ⟨g, hg, by rw [hl, Frame.layout_allocate], htyped⟩

end Capture

/-! ## Disclosure -/

section Disclosure

variable {code : Code} {ls : List Layout} {id : Nat} {closure frame : Frame}

/-- A disclosed cell of a typed closure may stand in an activation. -/
theorem Cell.Typed.disclosed {ty : Ty} {c : Cell} (hc : c.Typed code ls (some id) ty) :
    (c.disclosed id).Typed code ls none ty := by
  unfold Cell.disclosed
  split
  · next f =>
    obtain ⟨hty, hf⟩ := hc
    split
    · next hself =>
      -- The self-reference named the closure it stood in, so the layout stays that of its target.
      refine ⟨hty, hf.declared, ?_, fun h => (nomatch h)⟩
      intro k hk
      cases hk
      exact hf.laidOut id (hf.self hself)
    · next hshared => exact ⟨hty, hf.declared, hf.laidOut, fun h => absurd h hshared⟩
  · next hother =>
    cases c with
    | reference v =>
      cases v with
      | function f => exact absurd rfl (hother f)
      | _ => exact hc
    | _ => exact hc

/-- What a run on the frame of a call keeps: the frame is typed, at its layout. -/
def Discipline.typedFrame (code : Code) (ls : List Layout) (layout : Layout) :
    Discipline Frame where
  holds f := f.layout = layout ∧ f.Typed code ls none
  leads _ _ := True
  halts := Halt.Admissible
  refl _ := trivial
  trans _ _ := trivial

theorem discloseSlots_typed {layout : Layout} (hclosure : closure.Typed code ls (some id))
    (hframe : (Discipline.typedFrame code ls layout).holds frame) (ts : List Transfer)
    (hts : ∀ t ∈ ts, ∃ ty, closure.layout.Declares t.source ty ∧ layout.Declares t.target ty) :
    (discloseSlots id closure ts).Obeys (.typedFrame code ls layout) frame fun _ _ => True := by
  induction ts generalizing frame with
  | nil => exact .pure hframe trivial
  | cons t ts ih =>
    refine .bind (p := fun _ _ => True) ?_
      (fun _ g hg _ _ => ih hg fun u hu => hts u (List.mem_cons_of_mem _ hu))
    obtain ⟨rfl, htyped⟩ := hframe
    obtain ⟨ty, hfrom, hto⟩ := hts t List.mem_cons_self
    obtain ⟨here, hhere, rfl⟩ := Frame.slot_of_declares hfrom
    obtain ⟨there, hthere, hty⟩ := Frame.slot_of_declares hto
    have hcell := hclosure _ _ hhere
    have light : here.cell.Of (fun _ => True) here.ty :=
      hcell.of (fun _ _ => trivial) (fun _ _ => trivial)
    have disclosed := discloseSlot_of_cell id hhere hthere hty light
    refine .of_update disclosed ⟨Frame.layout_setCell .., htyped.setCell fun s hs => ?_⟩ trivial
      trivial
    rw [hthere] at hs
    cases hs
    rw [hty]
    exact hcell.disclosed

/-- **Disclosure keeps the frame of a call typed.** It halts only where a closure is missing or
needless. -/
theorem disclose_typed {layout source : Layout} {ts : List Transfer}
    {captured : Option (Nat × Frame)}
    (hcaptured : ∀ k closure, captured = some (k, closure) →
      closure.layout = source ∧ closure.Typed code ls (some k))
    (hframe : (Discipline.typedFrame code ls layout).holds frame)
    (hts : checkTransfers source layout ts = .ok ()) :
    (disclose ts captured).Obeys (.typedFrame code ls layout) frame fun _ _ => True := by
  unfold disclose
  split
  · split
    · exact .pure hframe trivial
    · exact .fault hframe trivial
  · next k closure =>
    split
    · exact .fault hframe trivial
    · obtain ⟨rfl, hclosure⟩ := hcaptured k closure rfl
      exact discloseSlots_typed hclosure hframe ts (checkTransfers_eq_ok.mp hts)

end Disclosure

/-! ## Definitions -/

/-- What a run on the store keeps: it is typed, and has grown from the layouts in `base`. -/
def Discipline.typedStore (code : Code) (base : List Layout) : Discipline Store where
  holds s := s.Typed code ∧ base <+: s.layouts
  leads s t := s.layouts <+: t.layouts
  halts := Halt.Admissible
  refl _ := List.prefix_rfl
  trans := List.IsPrefix.trans

/-- What a run in an activation of a layout keeps. -/
def Discipline.typed (code : Code) (base : List Layout) (layout : Layout) :
    Discipline Activation where
  holds a := a.Typed code layout ∧ base <+: a.store.layouts
  leads a b := a.store.layouts <+: b.store.layouts
  halts := Halt.Admissible
  refl _ := List.prefix_rfl
  trans := List.IsPrefix.trans

section Definitions

variable {code : Code} {base : List Layout} {layout : Layout} {a : Activation}

/-- More closures in the store leave the frame of an activation typed. -/
theorem Activation.Typed.withStore (ha : a.Typed code layout) {s : Store} (hs : s.Typed code)
    (grown : a.store.layouts <+: s.layouts) : Activation.Typed code layout { a with store := s } :=
  ⟨ha.layout, ha.frame.mono grown, hs⟩

/-- A run on the store is one in the activation. -/
theorem Run.Obeys.onStore {α : Type} {m : Run Store α} {r : α → Store → Prop}
    (ha : (Discipline.typed code base layout).holds a)
    (h : m.Obeys (.typedStore code base) a.store r) :
    (Activation.onStore m).Obeys (.typed code base layout) a fun x b => r x b.store :=
  .focus h (fun _ hs grown => ⟨⟨ha.1.withStore hs.1 grown, hs.2⟩, grown⟩) (fun _ _ hr => hr)
    (fun _ he => he)

theorem newStorage_typed {s : Store} (hs : (Discipline.typedStore code base).holds s) :
    Store.newStorage.Obeys (.typedStore code base) s fun _ _ => True :=
  ⟨hs, List.prefix_rfl, trivial⟩

/-- The number of a new closure finds its layout. -/
theorem Function.laidOut_addClosure (s : Store) {frame : Frame} {target : Target}
    (hl : target.closure = some frame.layout) :
    Function.LaidOut (s.addClosure frame).2.layouts
      ⟨target, some (.shared s.closures.size)⟩ := by
  intro k hk
  cases hk
  have hsize : s.layouts.length = s.closures.size := by simp [Store.layouts]
  refine ⟨frame.layout, ?_, hl⟩
  rw [Store.layouts_addClosure, ← hsize]
  exact List.getElem?_concat_length

/-- **A definition gives a function of its target**, and a typed closure if it captures. -/
theorem instantiate_typed {target : Target} {capture : Capture}
    (ha : (Discipline.typed code base layout).holds a) (hdeclared : code.Declares target)
    (hclosure : target.closure = some capture.closure)
    (hts : checkTransfers layout capture.closure capture.transfers = .ok ()) :
    (instantiate target capture).Obeys (.typed code base layout) a
      fun f b => f.target = target ∧ f.Typed code b.store.layouts none := by
  obtain ⟨ha, hbase⟩ := ha
  rw [← ha.layout] at hts
  obtain ⟨-, h⟩ | ⟨f, hf, -⟩ | ⟨frame, hframe, h⟩ := instantiate_cases target capture a
  · exact .of_ok h ⟨ha, hbase⟩ List.prefix_rfl
      ⟨rfl, hdeclared, fun k hk => (nomatch hk), fun h => (nomatch h)⟩
  · obtain ⟨g, hg, -⟩ := Capture.snapshot_typed (h := none) ha.frame hts
    rw [hf] at hg
    cases hg
  · obtain ⟨g, hg, hl, htyped⟩ :=
      Capture.snapshot_typed (h := some a.store.closures.size) ha.frame hts
    rw [hframe] at hg
    cases hg
    have grown := a.store.layouts_prefix_addClosure frame
    refine .of_ok h ⟨ha.withStore (ha.store.addClosure htyped) grown, hbase.trans grown⟩ grown ?_
    exact ⟨rfl, hdeclared, Function.laidOut_addClosure a.store (by rw [hl]; exact hclosure),
      fun h => (nomatch h)⟩

/-! ## The recursive knot -/

variable {slot closureSlot : Nat} {f : Function}

/-- A function of a slot's type can be written there. -/
theorem writeFunction_typed (ha : (Discipline.typed code base layout).holds a)
    (hd : layout.Declares slot f.ty) (hf : f.Typed code a.store.layouts none) :
    (Activation.updateFrame (·.writeFunction slot f)).Obeys (.typed code base layout) a
      fun _ b => b.store = a.store ∧ b.frame.readFunction slot = .ok f := by
  obtain ⟨⟨rfl, hframe, hstore⟩, hbase⟩ := ha
  obtain ⟨s, hs, hty⟩ := Frame.slot_of_declares hd
  have written := Frame.writeFunction_of_slot hs hty
  have fits : (Value.function f).Fits code a.store.layouts f.ty := ⟨rfl, .function hf⟩
  exact .of_updateFrame written
    ⟨⟨Frame.layout_setCell .., hframe.put hd fits, hstore⟩, hbase⟩ List.prefix_rfl
    ⟨rfl, Frame.readFunction_of_writeFunction written⟩

/-- **A function has a closure after `ensureClosure`**, laid out as its target says. -/
theorem ensureClosure_typed (ha : (Discipline.typed code base layout).holds a)
    (hd : layout.Declares slot f.ty) (hf : f.Typed code a.store.layouts none) {l : Layout}
    (hl : f.target.closure = some l) :
    (ensureClosure slot f).Obeys (.typed code base layout) a fun r b =>
      r.2.target = f.target ∧ r.2.closureId? = some r.1 ∧ r.2.Typed code b.store.layouts none := by
  unfold ensureClosure
  obtain ⟨r, hr⟩ := hf.laidOut.closureIn
  refine .bind_read (by exact lift_defect_eq_ok.mpr hr) ?_
  have named := Function.closureId?_of_closureIn hr
  cases r with
  | some r => exact .pure ha ⟨rfl, named, hf⟩
  | none =>
    simp only [hl]
    obtain ⟨ha, hbase⟩ := ha
    have grown := a.store.layouts_prefix_addClosure (.allocate l)
    have made := ha.store.addClosure (.allocate l)
    refine .bind (p := fun k c => k = a.store.closures.size ∧
      c.store = (a.store.addClosure (.allocate l)).2)
      ⟨⟨ha.withStore made grown, hbase.trans grown⟩, grown, rfl, rfl⟩ ?_
    rintro k c hc - ⟨rfl, hstore⟩
    have htyped : (f.withClosure a.store.closures.size).Typed code c.store.layouts none := by
      refine ⟨hf.declared, ?_, fun h => (nomatch h)⟩
      rw [hstore]
      exact Function.laidOut_addClosure a.store (by rw [Frame.layout_allocate]; exact hl)
    refine .bind (writeFunction_typed hc hd htyped) ?_
    rintro - d hd - ⟨hsame, -⟩
    exact .pure hd ⟨rfl, rfl, by rw [hsame]; exact htyped⟩

/-- A function may be put into a slot of its own closure. -/
theorem writeSelf_typed {s : Store} {id : Nat} (hs : (Discipline.typedStore code base).holds s)
    (hid : f.closureId? = some id) (hf : f.Typed code s.layouts none) {l : Layout}
    (hl : f.target.closure = some l) (hd : l.Declares closureSlot f.ty) :
    (writeSelf id closureSlot f).Obeys (.typedStore code base) s fun _ _ => True := by
  obtain ⟨frame, hframe, hlayout⟩ := hf.laidOut.closure hid
  rw [hl] at hlayout
  cases hlayout
  obtain ⟨t, ht, hty⟩ := Frame.slot_of_declares hd
  have self : f.selfReference.Typed code s.layouts (some id) :=
    ⟨hf.declared, fun k hk => hf.laidOut k (by rwa [Function.closureId?_selfReference] at hk),
      fun _ => by rw [Function.closureId?_selfReference]; exact hid⟩
  have written : frame.writeFunction closureSlot f.selfReference = _ :=
    Frame.writeFunction_of_slot ht hty
  have typed : (frame.setCell closureSlot (.reference (.function f.selfReference))).Typed code
      s.layouts (some id) := by
    refine (hs.1 id frame hframe).setCell fun u hu => ?_
    rw [ht] at hu
    cases hu
    exact ⟨hty, self⟩
  have same := Store.layouts_setClosure hframe (Frame.layout_setCell frame closureSlot
    (.reference (.function f.selfReference)))
  refine .of_update (by simp only [hframe, written]; rfl)
    ⟨hs.1.setClosure hframe (Frame.layout_setCell ..) typed, by rw [same]; exact hs.2⟩ ?_ trivial
  exact ⟨[], by rw [List.append_nil]; exact same.symm⟩

/-- **The knot of a definition keeps activations typed.** -/
theorem tieKnot_typed (ha : (Discipline.typed code base layout).holds a)
    (hread : a.frame.readFunction slot = .ok f) (hslot : layout.Declares slot f.ty)
    (hf : f.Typed code a.store.layouts none) {l : Layout} (hl : f.target.closure = some l)
    (hd : l.Declares closureSlot f.ty) :
    (tieKnot slot closureSlot).Obeys (.typed code base layout) a fun _ _ => True := by
  unfold tieKnot
  refine .bind_read (by exact hread) ?_
  refine .bind (ensureClosure_typed ha hslot hf hl) ?_
  rintro ⟨id, g⟩ c hc - ⟨htarget, hid, htyped⟩
  have hty : g.ty = f.ty := by rw [Function.ty, htarget]; rfl
  exact .onStore hc
    (writeSelf_typed ⟨hc.1.store, hc.2⟩ hid htyped (by rw [htarget]; exact hl) (by rw [hty]; exact hd))

end Definitions

end TypedEval
