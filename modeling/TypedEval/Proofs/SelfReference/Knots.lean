import TypedEval.Proofs.SelfReference.Basic

/-!
# Recursive knots

A recursive binding leaves a **knot** behind: the number of a closure, a slot of it, and the target of
the function that was put there. What keeps a knot tied is that no function of another target goes by
the closure's number (`Function.Kept`), for whoever binds a function with that closure once more puts
the same function into its slots.

Each operation of an evaluation keeps functions at home and knots tied (`Discipline.kept`). The list
of knots that functions respect may be longer than the list of those that are tied: a definition that
is being bound respects its knot before the knot is there.
-/

namespace TypedEval

/-! ## Functions at home -/

namespace Function

variable {f : Function} {n m : Nat} {home : Option Nat} {id : Nat}

theorem Homed.mono (h : n ≤ m) (hf : f.Homed n home) : f.Homed m home :=
  ⟨fun id hid => Nat.lt_of_lt_of_le (hf.named id hid) h, hf.self⟩

/-- What stands nowhere in particular is no self-reference. -/
theorem Homed.shared (hf : f.Homed n none) : f.isSelfReference = false := by
  cases hself : f.isSelfReference with
  | false => rfl
  | true =>
    have hnone := hf.self hself
    unfold isSelfReference at hself
    split at hself
    · next heq => simp [closureId?, heq] at hnone
    · cases hself

/-- A shared reference to a closure. -/
theorem eq_shared (hf : f.isSelfReference = false) (hid : f.closureId? = some id) :
    f = ⟨f.target, some (.shared id)⟩ := by
  obtain ⟨target, closure⟩ := f
  cases closure with
  | none => cases hid
  | some r =>
    cases r with
    | shared k => cases hid; rfl
    | selfReference k => cases hf

theorem closureId?_disclosedFrom (h : f.isSelfReference = true → f.closureId? = some id) :
    (f.disclosedFrom id).closureId? = f.closureId? := by
  unfold disclosedFrom
  split
  · next hself => exact (h hself).symm
  · rfl

/-- What is disclosed from the closure that it is at home in names that closure still, and is no
self-reference. -/
theorem Homed.disclosedFrom (hf : f.Homed n (some id)) : (f.disclosedFrom id).Homed n none := by
  have same := closureId?_disclosedFrom hf.self
  refine ⟨fun k hk => hf.named k (same ▸ hk), fun hself => ?_⟩
  unfold Function.disclosedFrom at hself
  split at hself
  · cases hself
  · next hshared => exact absurd hself hshared

end Function

/-! ## Knots -/

/-- **A recursive knot**: a function of `target` was put into a slot of its own closure. -/
structure Knot where
  closure : Nat
  slot : Nat
  target : Target

namespace Knot

/-- The function that was bound, as it is called. -/
def function (κ : Knot) : Function := ⟨κ.target, some (.shared κ.closure)⟩

/-- **A knot is tied** in a store: its slot holds the function, as a self-reference. -/
def TiedIn (κ : Knot) (s : Store) : Prop :=
  ∃ frame slot, s.closures[κ.closure]? = some frame ∧ frame.slots[κ.slot]? = some slot ∧
    slot.ty = κ.target.ty ∧ slot.cell = .reference (.function κ.function.selfReference)

variable {κ : Knot} {s t : Store}

theorem TiedIn.lt_size (h : κ.TiedIn s) : κ.closure < s.closures.size := by
  obtain ⟨_, _, hframe, -⟩ := h
  exact (Array.getElem?_eq_some_iff.mp hframe).1

theorem TiedIn.mono (hst : s.Extends t) (h : κ.TiedIn s) : κ.TiedIn t := by
  obtain ⟨frame, slot, hframe, hslot⟩ := h
  exact ⟨frame, slot, hst _ _ hframe, hslot⟩

/-- A function that is written into its own closure is tied there. -/
theorem tiedIn_setClosure {frame : Frame} {slot : Slot}
    (hframe : s.closures[κ.closure]? = some frame) (hslot : frame.slots[κ.slot]? = some slot)
    (hty : slot.ty = κ.target.ty) :
    κ.TiedIn (s.setClosure κ.closure
      (frame.setCell κ.slot (.reference (.function κ.function.selfReference)))) :=
  ⟨_, _, Store.getElem?_setClosure_self hframe _, Frame.slot_setCell_self _ hslot, hty, rfl⟩

/-- A knot stays tied when a function is written into its own closure: in the closure of the knot,
that can only be the function of the knot. -/
theorem TiedIn.setClosure (h : κ.TiedIn s) {id i : Nat} {f : Function} {frame : Frame}
    (hframe : s.closures[id]? = some frame)
    (hf : id = κ.closure → f = κ.function.selfReference) :
    κ.TiedIn (s.setClosure id (frame.setCell i (.reference (.function f)))) := by
  obtain ⟨old, slot, hold, hslot, hty, hcell⟩ := h
  by_cases hclosure : id = κ.closure
  · cases hf hclosure
    subst hclosure
    rw [hframe] at hold
    cases hold
    by_cases hi : i = κ.slot
    · subst hi
      exact tiedIn_setClosure hframe hslot hty
    · exact ⟨_, slot, Store.getElem?_setClosure_self hframe _,
        (Frame.slot_setCell_ne _ hi).trans hslot, hty, hcell⟩
  · exact ⟨old, slot, (Store.getElem?_setClosure_ne hclosure s _).trans hold, hslot, hty, hcell⟩

end Knot

/-- **A function is kept**: it is at home, and the closure of a knot belongs to the knot's target. -/
structure Function.Kept (closures : Nat) (knots : List Knot) (home : Option Nat) (f : Function) :
    Prop where
  homed : f.Homed closures home
  target : ∀ κ ∈ knots, f.closureId? = some κ.closure → f.target = κ.target

namespace Function.Kept

variable {f : Function} {n m id : Nat} {home : Option Nat} {knots more : List Knot}

/-- Closures are added, and knots in closures that were not there yet. -/
theorem mono (hnm : n ≤ m) (hknots : ∀ κ ∈ more, κ ∈ knots ∨ n ≤ κ.closure)
    (hf : f.Kept n knots home) : f.Kept m more home := by
  refine ⟨hf.homed.mono hnm, fun κ hκ hid => ?_⟩
  obtain hold | hnew := hknots κ hκ
  · exact hf.target κ hold hid
  · exact absurd (hf.homed.named _ hid) (Nat.not_lt.mpr hnew)

theorem addClosure (hf : f.Kept n knots home) : f.Kept (n + 1) knots home :=
  hf.mono (Nat.le_succ n) fun _ hκ => .inl hκ

/-- What may stand in an activation may stand in every closure. -/
theorem anywhere (hf : f.Kept n knots none) (home : Option Nat) : f.Kept n knots home :=
  ⟨⟨hf.homed.named, fun hself => by rw [hf.homed.shared] at hself; cases hself⟩, hf.target⟩

theorem disclosedFrom (hf : f.Kept n knots (some id)) : (f.disclosedFrom id).Kept n knots none := by
  refine ⟨hf.homed.disclosedFrom, fun κ hκ hid => ?_⟩
  rw [closureId?_disclosedFrom hf.homed.self] at hid
  have same : (f.disclosedFrom id).target = f.target := by
    unfold Function.disclosedFrom
    split <;> rfl
  rw [same]
  exact hf.target κ hκ hid

/-- A function with the next closure of the store. -/
theorem next {target : Target} (h : ∀ κ ∈ knots, κ.closure = n → κ.target = target) :
    Function.Kept (n + 1) knots none ⟨target, some (.shared n)⟩ := by
  refine ⟨⟨fun id hid => ?_, fun hself => (nomatch hself)⟩, fun κ hκ hid => ?_⟩
  · cases hid
    exact Nat.lt_succ_self n
  · exact (h κ hκ (Option.some.inj hid).symm).symm

theorem selfReference (hf : f.Kept n knots none) :
    f.selfReference.Kept n knots f.closureId? := by
  refine ⟨⟨fun id hid => ?_, fun _ => Function.closureId?_selfReference f⟩, fun κ hκ hid => ?_⟩
  · rw [Function.closureId?_selfReference] at hid
    exact hf.homed.named id hid
  · rw [Function.closureId?_selfReference] at hid
    exact hf.target κ hκ hid

end Function.Kept

/-! ## Stores and activations -/

/-- **A store is kept**: its functions are, and its knots are tied. -/
structure Store.Kept (knots tied : List Knot) (s : Store) : Prop where
  functions : s.Holds (Function.Kept s.closures.size knots)
  tied : ∀ κ ∈ tied, κ.TiedIn s

/-- **An activation is kept.** -/
structure Activation.Kept (knots tied : List Knot) (a : Activation) : Prop where
  frame : a.frame.Holds (Function.Kept a.store.closures.size knots) none
  store : a.store.Kept knots tied

section

variable {knots tied : List Knot}

namespace Store

variable {s : Store} {frame : Frame}

theorem Kept.addClosure (hs : s.Kept knots tied)
    (hframe : frame.Holds (Function.Kept (s.closures.size + 1) knots) (some s.closures.size)) :
    (s.addClosure frame).2.Kept knots tied := by
  have size : (s.addClosure frame).2.closures.size = s.closures.size + 1 := by simp [Store.addClosure]
  refine ⟨fun id g hg => ?_, fun κ hκ => (hs.tied κ hκ).mono (s.extends_addClosure frame)⟩
  rw [size]
  simp only [Store.addClosure, Array.getElem?_push] at hg
  split at hg
  · next hid => cases hg; rw [hid]; exact hframe
  · exact (hs.functions id g hg).imp fun _ _ => .addClosure

end Store

/-- What a run on the store keeps. -/
def Discipline.keptStore (knots tied : List Knot) : Discipline Store where
  holds s := s.Kept knots tied
  leads s t := s.closures.size ≤ t.closures.size
  halts _ := True
  refl _ := Nat.le_refl _
  trans := Nat.le_trans

/-- What a run in an activation keeps. -/
def Discipline.kept (knots tied : List Knot) : Discipline Activation where
  holds a := a.Kept knots tied
  leads a b := a.store.closures.size ≤ b.store.closures.size
  halts _ := True
  refl _ := Nat.le_refl _
  trans := Nat.le_trans

variable {a : Activation}

theorem Activation.Kept.withStore (ha : a.Kept knots tied) {s : Store} (hs : s.Kept knots tied)
    (grown : a.store.closures.size ≤ s.closures.size) :
    Activation.Kept knots tied { a with store := s } :=
  ⟨ha.frame.imp fun _ _ => .mono grown fun _ hκ => .inl hκ, hs⟩

theorem Run.Obeys.onStore_kept {α : Type} {m : Run Store α} {p : α → Store → Prop}
    (ha : a.Kept knots tied) (h : m.Obeys (.keptStore knots tied) a.store p) :
    (Activation.onStore m).Obeys (.kept knots tied) a fun x b =>
      b.frame = a.frame ∧ p x b.store :=
  .focus h (fun _ hs grown => ⟨ha.withStore hs grown, grown⟩) (fun _ _ hp => ⟨rfl, hp⟩)
    (fun _ he => he)

theorem newStorage_kept {s : Store} (hs : s.Kept knots tied) :
    Store.newStorage.Obeys (.keptStore knots tied) s fun _ t => t.closures = s.closures :=
  ⟨⟨hs.functions, hs.tied⟩, Nat.le_refl _, rfl⟩

/-! ## Operations on the frame -/

theorem Run.Obeys.check_kept {α : Type} {x : Except Fault α} {p : α → Activation → Prop}
    (ha : a.Kept knots tied) (h : ∀ v, x = .ok v → p v a) :
    (Run.check x).Obeys (.kept knots tied) a p := by
  cases x with
  | ok v => exact .pure ha (h v rfl)
  | error f => exact .fault ha trivial

theorem readAs_kept (ha : a.Kept knots tied) (family : Family) (slot : Nat) :
    (Activation.readFrame (·.readAs family slot)).Obeys (.kept knots tied) a fun x b =>
      (family.box x).Holds (Function.Kept b.store.closures.size knots none) :=
  .read ha (fun _ hx => ha.frame.readAs hx) (fun _ _ => trivial)

theorem writeAs_kept (ha : a.Kept knots tied) {family : Family} {x : Carrier family}
    (hx : (family.box x).Holds (Function.Kept a.store.closures.size knots none)) (slot : Nat) :
    (Activation.updateFrame (·.writeAs slot family x)).Obeys (.kept knots tied) a
      fun _ b => b.store = a.store ∧ a.frame.writeAs slot family x = .ok b.frame :=
  .updateFrame ha
    (fun _ hg => ⟨⟨ha.frame.writeAs hx hg, ha.store⟩, Nat.le_refl _, rfl, hg⟩)
    (fun _ _ => trivial)

theorem writeFunction_kept (ha : a.Kept knots tied) {f : Function}
    (hf : f.Kept a.store.closures.size knots none) (slot : Nat) :
    (Activation.updateFrame (·.writeFunction slot f)).Obeys (.kept knots tied) a
      fun _ b => b.store = a.store ∧ b.frame.readFunction slot = .ok f := by
  have fits : (Family.function.box f).Holds (Function.Kept a.store.closures.size knots none) :=
    .function hf
  refine (writeAs_kept ha fits slot).imp ?_
  rintro - b ⟨hstore, hwritten⟩
  exact ⟨hstore, Frame.readFunction_of_writeFunction hwritten⟩

/-! ## Definitions -/

/-- **A definition gives a kept function** of its target, without a closure or with the next one. -/
theorem instantiate_kept (ha : a.Kept knots tied) {target : Target} (capture : Capture)
    (hnew : ∀ κ ∈ knots, κ.closure = a.store.closures.size → κ.target = target) :
    (instantiate target capture).Obeys (.kept knots tied) a fun f b =>
      f.Kept b.store.closures.size knots none ∧
        (f = .plain target ∧ b = a ∨ f = ⟨target, some (.shared a.store.closures.size)⟩) := by
  obtain ⟨-, h⟩ | ⟨f, -, h⟩ | ⟨frame, hframe, h⟩ := instantiate_cases target capture a
  · exact .of_ok h ha (Nat.le_refl _)
      ⟨⟨⟨fun id hid => (nomatch hid), fun hself => (nomatch hself)⟩, fun κ _ hid => (nomatch hid)⟩,
        .inl ⟨rfl, rfl⟩⟩
  · exact .of_halt h ha (Nat.le_refl _) trivial
  · have size : (a.store.addClosure frame).2.closures.size = a.store.closures.size + 1 := by
      simp [Store.addClosure]
    have captured : frame.Holds (Function.Kept (a.store.closures.size + 1) knots)
        (some a.store.closures.size) :=
      copySlots_holds (fun _ hf => hf.anywhere _) (ha.frame.imp fun _ _ => .addClosure)
        (.allocate _) _ hframe
    have grown : a.store.closures.size ≤ (a.store.addClosure frame).2.closures.size := by omega
    refine .of_ok h (ha.withStore (ha.store.addClosure captured) grown) grown ⟨?_, .inr rfl⟩
    show Function.Kept (a.store.addClosure frame).2.closures.size knots none _
    rw [size]
    exact .next hnew

/-! ## Tying a knot -/

variable {f : Function} {slot closureSlot : Nat}

/-- **A function that is about to be tied has a closure**: its own, or the next one, with which it is
written back to its slot. -/
theorem ensureClosure_kept (ha : a.Kept knots tied)
    (hf : f.Kept a.store.closures.size knots none) (hread : a.frame.readFunction slot = .ok f)
    (hnew : f.closureId? = none →
      ∀ κ ∈ knots, κ.closure = a.store.closures.size → κ.target = f.target) :
    (ensureClosure slot f).Obeys (.kept knots tied) a fun r b =>
      r.2 = ⟨f.target, some (.shared (f.closureId?.getD a.store.closures.size))⟩ ∧
        r.2.closureId? = some r.1 ∧ r.2.Kept b.store.closures.size knots none ∧
        b.frame.readFunction slot = .ok r.2 := by
  unfold ensureClosure
  refine .bind (p := fun r b => b = a ∧ f.closureIn a.store = .ok r) ?_ ?_
  · exact .read ha (fun r hr => ⟨rfl, lift_defect_eq_ok.mp hr⟩) (fun _ _ => trivial)
  rintro r b hb - ⟨rfl, hr⟩
  have named := Function.closureId?_of_closureIn hr
  cases r with
  | some r =>
    refine .pure hb ⟨?_, named, hf, hread⟩
    rw [named]
    exact Function.eq_shared hf.homed.shared named
  | none =>
    simp only
    split
    · exact .bind (p := fun _ _ => True) (.read hb (fun _ _ => trivial) fun _ _ => trivial)
        fun _ _ hc _ _ => .fault hc trivial
    · next layout _ =>
      have size : (b.store.addClosure (.allocate layout)).2.closures.size
          = b.store.closures.size + 1 := by simp [Store.addClosure]
      have grown : b.store.closures.size ≤ (b.store.addClosure (.allocate layout)).2.closures.size := by
        omega
      refine .bind (p := fun id c => id = b.store.closures.size ∧
        c.store.closures.size = b.store.closures.size + 1) ?_ ?_
      · exact ⟨hb.withStore (hb.store.addClosure (.allocate layout)) grown, grown, rfl, size⟩
      rintro id c hc - ⟨rfl, hsize⟩
      have kept : (f.withClosure b.store.closures.size).Kept c.store.closures.size knots none := by
        rw [hsize]
        exact .next (hnew named)
      refine .bind (writeFunction_kept hc kept slot) ?_
      rintro - d hd - ⟨hsame, hwritten⟩
      exact .pure hd ⟨by rw [named]; rfl, rfl, by rw [hsame]; exact kept, hwritten⟩

/-- **Writing a function into its own closure ties its knot**, and leaves every knot tied: in the slot
of another knot of that closure, the same function is written again. -/
theorem writeSelf_kept {s : Store} {id : Nat} (hs : s.Kept knots tied)
    (htied : ∀ κ ∈ tied, κ ∈ knots) (hf : f.Kept s.closures.size knots none)
    (hid : f.closureId? = some id) :
    (writeSelf id closureSlot f).Obeys (.keptStore knots tied) s
      fun _ t => Knot.TiedIn ⟨id, closureSlot, f.target⟩ t := by
  unfold writeSelf
  cases hframe : s.closures[id]? with
  | none =>
    exact .of_halt (e := .fault (.defect (.lostClosure f.displayName)) []) (t := s)
      (by simp [Run.update, hframe]) hs (Nat.le_refl _) trivial
  | some frame =>
    cases hw : frame.writeFunction closureSlot f.selfReference with
    | error e =>
      refine .of_halt (e := .fault e []) (t := s) ?_ hs (Nat.le_refl _) trivial
      simp only [Run.update, hframe, hw]
      rfl
    | ok g =>
      obtain ⟨rfl, slot, hslot, hty⟩ := Frame.setCell_of_writeFunction hw
      have self : f.selfReference = (Knot.mk id closureSlot f.target).function.selfReference := by
        rw [Function.eq_shared hf.homed.shared hid]
        rfl
      have size (g : Frame) : (s.setClosure id g).closures.size = s.closures.size := by
        simp [Store.setClosure]
      refine .of_update (t := s.setClosure id _) (by simp only [hframe, hw]; rfl) ⟨?_, ?_⟩
        (Nat.le_of_eq (size _).symm) ?_
      · intro k h hk
        rw [size]
        by_cases hkey : id = k
        · subst hkey
          rw [Store.getElem?_setClosure_self hframe] at hk
          cases hk
          refine (hs.functions id frame hframe).setCell fun u hu => ?_
          rw [hslot] at hu
          cases hu
          exact ⟨hty, hid ▸ hf.selfReference⟩
        · rw [Store.getElem?_setClosure_ne hkey] at hk
          exact hs.functions k h hk
      · intro κ hκ
        refine (hs.tied κ hκ).setClosure hframe fun hclosure => ?_
        rw [self, hf.target κ (htied κ hκ) (hclosure ▸ hid), hclosure]
        rfl
      · rw [self]
        exact Knot.tiedIn_setClosure hframe hslot hty

/-- **Tying a knot** keeps the activation. The function is in its slot with its closure, and in the
closure. -/
theorem tieKnot_kept (ha : a.Kept knots tied) (htied : ∀ κ ∈ tied, κ ∈ knots)
    (hnew : ∀ f, a.frame.readFunction slot = .ok f → f.closureId? = none →
      ∀ κ ∈ knots, κ.closure = a.store.closures.size → κ.target = f.target) :
    (tieKnot slot closureSlot).Obeys (.kept knots tied) a fun _ b =>
      ∃ f id, a.frame.readFunction slot = .ok f ∧
        id = f.closureId?.getD a.store.closures.size ∧
        b.frame.readFunction slot = .ok ⟨f.target, some (.shared id)⟩ ∧
        Knot.TiedIn ⟨id, closureSlot, f.target⟩ b.store := by
  unfold tieKnot
  refine .bind (p := fun f b => b = a ∧ a.frame.readFunction slot = .ok f) ?_ ?_
  · exact .read ha (fun f hf => ⟨rfl, hf⟩) (fun _ _ => trivial)
  rintro f b hb - ⟨rfl, hread⟩
  have hf : f.Kept b.store.closures.size knots none := hb.frame.readFunction hread
  refine .bind (ensureClosure_kept hb hf hread (hnew f hread)) ?_
  rintro ⟨id, g⟩ c hc - ⟨hg, hid, hkept, hslot⟩
  simp only at hg hid hkept hslot
  subst hg
  cases hid
  refine (Run.Obeys.onStore_kept hc (writeSelf_kept hc.store htied hkept rfl)).imp ?_
  rintro - d ⟨hframe, htie⟩
  exact ⟨f, _, hread, rfl, by rw [hframe]; exact hslot, htie⟩

end

/-! ## Disclosing a knot -/

section

variable {good : Option Nat → Function → Prop} {closure frame g : Frame} {id d : Nat}

/-- Disclosure to other slots leaves a slot alone. -/
theorem slot_of_discloseSlots (hclosure : closure.Holds good (some id)) {ts : List Transfer}
    (hts : ∀ t ∈ ts, t.target ≠ d) (h : discloseSlots id closure ts frame = (.ok (), g)) :
    g.slots[d]? = frame.slots[d]? := by
  induction ts generalizing frame with
  | nil => cases h; rfl
  | cons t ts ih =>
    obtain ⟨_, u, hu, h⟩ := Run.bind_ok_iff.mp h
    obtain ⟨_, _, -, -, -, rfl⟩ := discloseSlot_eq_ok hclosure (Run.update_ok_iff.mp hu)
    rw [ih (fun t ht => hts t (List.mem_cons_of_mem _ ht)) h]
    exact Frame.slot_setCell_ne _ (hts t List.mem_cons_self)

/-- Arguments for other slots leave a slot alone. -/
theorem slot_of_writeParams {slots : List Nat} {args : List Value} (hd : d ∉ slots)
    (h : writeParams slots args frame = (.ok (), g)) : g.slots[d]? = frame.slots[d]? := by
  induction slots generalizing args frame with
  | nil => cases h; rfl
  | cons slot slots ih =>
    cases args with
    | nil => cases h; rfl
    | cons v vs =>
      obtain ⟨_, u, hu, h⟩ := Run.bind_ok_iff.mp h
      obtain ⟨rfl, -⟩ := Frame.setCell_of_writeValue (Run.update_ok_iff.mp hu)
      rw [ih (fun hmem => hd (List.mem_cons_of_mem _ hmem)) h]
      exact Frame.slot_setCell_ne _ fun heq => hd (heq ▸ List.mem_cons_self)

/-- **Disclosure finds the function of a tied knot**, and hands it out with the closure it names. -/
theorem readFunction_of_discloseSlots {κ : Knot} {slot : Slot}
    (hclosure : closure.Holds good (some κ.closure)) (hslot : closure.slots[κ.slot]? = some slot)
    (hty : slot.ty = κ.target.ty)
    (hcell : slot.cell = .reference (.function κ.function.selfReference)) {pre post : List Transfer}
    (hpost : ∀ t ∈ post, t.target ≠ d)
    (h : discloseSlots κ.closure closure (pre ++ ⟨κ.slot, d⟩ :: post) frame = (.ok (), g)) :
    ∃ there, g.slots[d]? = some there ∧ there.ty = κ.target.ty ∧
      there.cell = .reference (.function κ.function) := by
  induction pre generalizing frame with
  | nil =>
    obtain ⟨_, u, hu, h⟩ := Run.bind_ok_iff.mp h
    obtain ⟨here, there, hhere, hthere, hsame, rfl⟩ :=
      discloseSlot_eq_ok hclosure (Run.update_ok_iff.mp hu)
    rw [hslot] at hhere
    cases hhere
    rw [slot_of_discloseSlots hclosure hpost h, hcell]
    exact ⟨_, Frame.slot_setCell_self _ hthere, hsame.trans hty, rfl⟩
  | cons t pre ih =>
    obtain ⟨_, u, -, h⟩ := Run.bind_ok_iff.mp h
    exact ih h

/-- **A body that is entered through a tied knot starts with its own function** in the slot that the
knot is disclosed to, unless a later transfer or a parameter goes there too. -/
theorem Body.enter_knot {body : Body} {κ : Knot} {args : List Value} {slot : Slot}
    (hclosure : closure.Holds good (some κ.closure)) (hslot : closure.slots[κ.slot]? = some slot)
    (hty : slot.ty = κ.target.ty)
    (hcell : slot.cell = .reference (.function κ.function.selfReference)) {pre post : List Transfer}
    (hdisclosure : body.disclosure = pre ++ ⟨κ.slot, d⟩ :: post)
    (hpost : ∀ t ∈ post, t.target ≠ d) (hparams : d ∉ body.params)
    (h : body.enter (some (κ.closure, closure)) args frame = (.ok (), g)) :
    g.readFunction d = .ok κ.function ∧
      ∃ u, disclose body.disclosure (some (κ.closure, closure)) frame = (.ok (), u) := by
  obtain ⟨_, u, hu, h⟩ := Run.bind_ok_iff.mp h
  refine ⟨?_, u, hu⟩
  have nonempty : body.disclosure.isEmpty = false := by rw [hdisclosure]; simp
  have written : g.slots[d]? = u.slots[d]? := by
    split at h
    · obtain ⟨_, _, h, -⟩ := Run.bind_ok_iff.mp h
      cases h
    · exact slot_of_writeParams hparams h
  have disclosed : discloseSlots κ.closure closure body.disclosure frame = (.ok (), u) := by
    simpa [disclose, nonempty] using hu
  rw [hdisclosure] at disclosed
  obtain ⟨there, hthere, hthereTy, hthereCell⟩ :=
    readFunction_of_discloseSlots hclosure hslot hty hcell hpost disclosed
  rw [Frame.readFunction_of_slot (written.trans hthere) (by rw [hthereTy]; rfl), hthereCell]

end

end TypedEval
