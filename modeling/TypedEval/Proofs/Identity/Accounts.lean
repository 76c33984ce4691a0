import TypedEval.Proofs.Identity.Basic
import TypedEval.Proofs.Renaming.Values
import TypedEval.Proofs.Value.Equality

/-!
# Origins that can be relied on

The origins of a value **account** for it when every function in the value has one, and when each that
is an instance is the instance that this function is (`Value.Accounted`). A frame is accounted for slot
by slot. In a closure there may be one more thing: the closure's own function, as a self-reference
(`Slot.KeepsSelf`).

Copies keep accounts, since they take the origins along. The one operation that changes a function on
its way is disclosure, and it changes a self-reference alone: the closure in which that was kept is the
one which it names, so the shared reference made of it is the same instance (`Slot.Accounted.disclosed`).
-/

namespace TypedEval

/-- **A function comes from an instance**: it is the function that was made. -/
def Function.ComesFrom (f : Function) (k : Nat) (instances : List Instance) : Prop :=
  ∃ x, instances[k]? = some x ∧ x.function.sameInstance f = true

/-- **Origins are right**: an instance is named for no function but that instance, which is not a
self-reference. -/
def Origins.Right (os : Origins) (instances : List Instance) : Prop :=
  ∀ f k, (f, .made k) ∈ os → f.ComesFrom k instances ∧ f.isSelfReference = false

/-- **Origins account for a value.** -/
structure Value.Accounted (v : Value) (os : Origins) (instances : List Instance) : Prop where
  covered : v.Holds fun f => ∃ s, (f, s) ∈ os
  right : os.Right instances

/-- **A closure keeps its own function** in a slot. -/
structure Slot.KeepsSelf (s : Slot) (id : Nat) (f : Function) (os : Origins)
    (instances : List Instance) : Prop where
  cell : s.cell = .reference (.function f)
  ty : s.ty = f.ty
  self : f.isSelfReference = true
  names : f.closureId? = some id
  covered : ∃ source, (f, source) ∈ os
  right : ∀ g k, (g, .made k) ∈ os → g = f ∧ f.ComesFrom k instances

/-- **Origins account for a slot**; `home` is the closure that the slot is of. -/
def Slot.Accounted (s : Slot) (home : Option Nat) (os : Origins) (instances : List Instance) :
    Prop :=
  (∀ v, s.cell.value? = some v → v.Accounted os instances) ∨
    ∃ id f, home = some id ∧ s.KeepsSelf id f os instances

/-- **Origins account for a frame**, slot by slot. -/
def Frame.Accounted (frame : Frame) (home : Option Nat) (labels : Labels)
    (instances : List Instance) : Prop :=
  ∀ (i : Nat) (s : Slot), frame.slots[i]? = some s → s.Accounted home (labels i) instances

/-! ## More instances -/

section

variable {instances more : List Instance}

theorem getElem?_of_prefix {α : Type} {l m : List α} (h : l <+: m) {k : Nat} {x : α}
    (hk : l[k]? = some x) : m[k]? = some x := by
  obtain ⟨rest, rfl⟩ := h
  rw [List.getElem?_append_left (List.getElem?_eq_some_iff.mp hk).1, hk]

theorem Function.ComesFrom.mono (h : instances <+: more) {f : Function} {k : Nat}
    (hf : f.ComesFrom k instances) : f.ComesFrom k more := by
  obtain ⟨x, hx, same⟩ := hf
  exact ⟨x, getElem?_of_prefix h hx, same⟩

theorem Origins.Right.mono (h : instances <+: more) {os : Origins} (ho : os.Right instances) :
    os.Right more :=
  fun f k hk => ⟨(ho f k hk).1.mono h, (ho f k hk).2⟩

theorem Value.Accounted.mono (h : instances <+: more) {v : Value} {os : Origins}
    (hv : v.Accounted os instances) : v.Accounted os more :=
  ⟨hv.covered, hv.right.mono h⟩

theorem Slot.Accounted.mono (h : instances <+: more) {s : Slot} {home : Option Nat} {os : Origins}
    (hs : s.Accounted home os instances) : s.Accounted home os more := by
  obtain hv | ⟨id, f, hhome, hf⟩ := hs
  · exact .inl fun v hcell => (hv v hcell).mono h
  · exact .inr ⟨id, f, hhome, { hf with
      right := fun g k hk => ⟨(hf.right g k hk).1, (hf.right g k hk).2.mono h⟩ }⟩

theorem Frame.Accounted.mono (h : instances <+: more) {frame : Frame} {home : Option Nat}
    {labels : Labels} (hf : frame.Accounted home labels instances) :
    frame.Accounted home labels more :=
  fun i s hs => (hf i s hs).mono h

end

/-! ## Values -/

section

variable {instances : List Instance} {os given : Origins} {v : Value}

theorem Origins.right_empty : Origins.Right ∅ instances := fun _ _ h => h.elim

theorem Origins.right_outside : Origins.outside.Right instances := fun _ _ h => nomatch h

theorem Origins.Right.union (ho : os.Right instances) (hg : given.Right instances) :
    (os ∪ given).Right instances :=
  fun f k hk => hk.elim (ho f k) (hg f k)

theorem Origins.Right.handedOn (hg : given.Right instances) : given.handedOn.Right instances :=
  fun f k hk => hk.elim (hg f k) fun h => nomatch h.1

/-- A value is accounted for by origins that leave out no function. -/
theorem Value.accounted_of_all (hall : ∀ f, ∃ s, (f, s) ∈ os) (ho : os.Right instances) :
    v.Accounted os instances := by
  refine ⟨?_, ho⟩
  induction v using Value.deep_induction with
  | bool b => exact .bool b
  | int n => exact .int n
  | float x => exact .float x
  | function f => exact .function (hall f)
  | range r => exact .range r
  | array a ih => exact .array ih
  | slice w ih => exact .slice ih

theorem Value.accounted_outside (v : Value) : v.Accounted .outside instances :=
  accounted_of_all (fun _ => ⟨.outside, rfl⟩) Origins.right_outside

/-- What a host function hands on comes from what it was given, or from outside. -/
theorem Value.accounted_handedOn (hg : given.Right instances) (v : Value) :
    v.Accounted given.handedOn instances := by
  refine accounted_of_all (fun f => ?_) hg.handedOn
  by_cases h : ∃ s, (f, s) ∈ given
  · obtain ⟨s, hs⟩ := h
    exact ⟨s, .inl hs⟩
  · exact ⟨.outside, .inr ⟨rfl, fun s hs => h ⟨s, hs⟩⟩⟩

/-- The origins of a value account for what was taken out of it. -/
theorem Value.Accounted.of_holds (hv : v.Accounted os instances) {w : Value}
    (hw : w.Holds fun f => ∃ s, (f, s) ∈ os) : w.Accounted os instances :=
  ⟨hw, hv.right⟩

theorem Value.accounted_primitive {v : Value} (h : v.family.isPrimitive = true) :
    v.Accounted ∅ instances :=
  ⟨v.holds_of_primitive h, Origins.right_empty⟩

end

/-! ## Frames -/

namespace Frame

variable {frame g : Frame} {home : Option Nat} {labels : Labels} {instances : List Instance}
  {i : Nat} {os : Origins}

theorem Accounted.allocate (l : Layout) : (Frame.allocate l).Accounted home labels instances := by
  intro i s hs
  refine .inl fun v hv => ?_
  rw [cell_of_allocate hs] at hv
  cases hv

/-- One slot holds something else. -/
theorem Accounted.setCell (hf : frame.Accounted home labels instances) {cell : Cell}
    (hcell : ∀ s, frame.slots[i]? = some s →
      ({ s with cell } : Slot).Accounted home os instances) :
    (frame.setCell i cell).Accounted home (Function.update labels i os) instances := by
  intro j s hs
  by_cases hj : j = i
  · subst hj
    rw [Function.update_self]
    cases ht : frame.slots[j]? with
    | none => simp [Frame.setCell, Array.getElem?_modify, ht] at hs
    | some t =>
      rw [slot_setCell_self cell ht] at hs
      cases hs
      exact hcell t ht
  · rw [Function.update_of_ne hj]
    rw [slot_setCell_ne cell (Ne.symm hj)] at hs
    exact hf j s hs

theorem Accounted.put (hf : frame.Accounted home labels instances) {v : Value}
    (hv : v.Accounted os instances) :
    (frame.setCell i v.cell).Accounted home (Function.update labels i os) instances := by
  refine hf.setCell fun s _ => .inl fun w hw => ?_
  have same : v.cell.value? = some v := by cases v <;> rfl
  rw [same] at hw
  cases hw
  exact hv

/-- What is read from the slot of a call's frame. -/
theorem Accounted.value (hf : frame.Accounted none labels instances) {s : Slot}
    (hs : frame.slots[i]? = some s) {v : Value} (hv : s.cell.value? = some v) :
    v.Accounted (labels i) instances := by
  obtain hslot | ⟨_, _, hhome, -⟩ := hf i s hs
  · exact hslot v hv
  · cases hhome

theorem Accounted.readAs (hf : frame.Accounted none labels instances) {family : Family}
    {x : Carrier family} (h : frame.readAs family i = .ok x) :
    (family.box x).Accounted (labels i) instances := by
  obtain ⟨s, hs, hv⟩ := readAs_eq_ok h
  exact hf.value hs hv

theorem Accounted.writeAs (hf : frame.Accounted none labels instances) {family : Family}
    {x : Carrier family} (hx : (family.box x).Accounted os instances)
    (h : frame.writeAs i family x = .ok g) :
    g.Accounted none (Function.update labels i os) instances := by
  obtain ⟨rfl, -⟩ := setCell_of_writeAs h
  exact hf.put hx

theorem Accounted.writeValue (hf : frame.Accounted none labels instances) {v : Value}
    (hv : v.Accounted os instances) (h : frame.writeValue i v = .ok g) :
    g.Accounted none (Function.update labels i os) instances := by
  obtain ⟨rfl, -⟩ := setCell_of_writeValue h
  exact hf.put hv

end Frame

/-! ## Capture and disclosure -/

section

variable {source target frame closure g : Frame} {home : Option Nat} {id : Nat}
  {from' into labels : Labels} {instances : List Instance} {ts : List Transfer}

/-- **Captured slots are accounted for** by the origins that they take along. -/
theorem copySlots_accounted (hs : source.Accounted none from' instances)
    (ht : target.Accounted home into instances) (h : copySlots source ts target = .ok g) :
    g.Accounted home (from'.carry ts into) instances := by
  induction ts generalizing target into with
  | nil => cases h; exact ht
  | cons t ts ih =>
    obtain ⟨u, hu, h⟩ := bind_eq_ok.mp h
    obtain ⟨here, there, hhere, hthere, -, rfl⟩ := Frame.copySlot_eq_ok hu
    refine ih (ht.setCell fun s _ => .inl fun v hv => ?_) h
    exact hs.value hhere hv

/-- What a call finds of a slot of the closure `id`. -/
def Slot.disclosedCell (s : Slot) (id : Nat) : Cell :=
  match s.cell with
  | .reference (.function f) =>
    if s.ty.isFunction && f.isSelfReference then .reference (.function (f.withClosure id))
    else s.cell
  | c => c

theorem setCell_of_discloseSlot {t : Transfer} (h : discloseSlot id closure t frame = .ok g) :
    ∃ here, closure.slots[t.source]? = some here ∧
      g = frame.setCell t.target (here.disclosedCell id) := by
  unfold discloseSlot at h
  obtain ⟨u, hu, h⟩ := bind_eq_ok.mp h
  obtain ⟨here, there, hhere, hthere, hty, rfl⟩ := Frame.copySlot_eq_ok hu
  refine ⟨here, hhere, ?_⟩
  have written := Frame.slot_setCell_self here.cell hthere
  obtain ⟨s, hs, h⟩ := bind_eq_ok.mp h
  have hs := Frame.slot_eq_ok.mp (lift_defect_eq_ok.mp hs)
  rw [written] at hs
  cases hs
  simp only [hty] at h
  split at h
  · next hdefined =>
    obtain ⟨f, hread, h⟩ := bind_eq_ok.mp h
    obtain ⟨s, hs, hcell⟩ := Frame.readFunction_eq_ok hread
    rw [written] at hs
    cases hs
    have hcell : here.cell = .reference (.function f) := hcell
    simp only [Bool.and_eq_true] at hdefined
    split at h
    · next hself =>
      obtain ⟨rfl, -⟩ := Frame.setCell_of_writeFunction h
      rw [Frame.setCell_setCell]
      simp [Slot.disclosedCell, hcell, hdefined.2, hself]
    · next hshared =>
      cases h
      simp [Slot.disclosedCell, hcell, hshared]
  · next hplain =>
    cases h
    congr 1
    unfold Slot.disclosedCell
    split
    · next f hcell =>
      rw [hcell] at hplain
      have : here.ty.isFunction = false := by simpa [Cell.isDefined] using hplain
      simp [this, hcell]
    · rfl

/-- A call finds the contents of a slot as they are, or a reference to the closure in place of a
self-reference. -/
theorem Slot.disclosed_cases (s : Slot) (id : Nat) (os : Origins) :
    (∃ f : Function, s.cell = .reference (.function f) ∧ f.isSelfReference = true ∧
      s.disclosedCell id = .reference (.function (f.withClosure id)) ∧
      s.disclosed id os = os.standing f (f.withClosure id)) ∨
    (∀ f : Function, s.cell = .reference (.function f) →
      (s.ty.isFunction && f.isSelfReference) = false) ∧
      s.disclosedCell id = s.cell ∧ s.disclosed id os = os := by
  obtain ⟨d, cell⟩ := s
  cases cell with
  | reference v =>
    cases v with
    | function f =>
      cases hself : d.ty.isFunction && f.isSelfReference with
      | true => exact .inl ⟨f, rfl, (Bool.and_eq_true_iff.mp hself).2, if_pos hself, if_pos hself⟩
      | false =>
        have shared := ne_true_of_eq_false hself
        exact .inr ⟨fun g hg => by cases hg; exact hself, if_neg shared, if_neg shared⟩
    | _ => exact .inr ⟨fun _ h => (nomatch h), rfl, rfl⟩
  | _ => exact .inr ⟨fun _ h => (nomatch h), rfl, rfl⟩

/-- **A disclosed slot is accounted for.** A self-reference comes out as a reference to the closure in
which it was kept, and that is the one which it names. -/
theorem Slot.Accounted.disclosed {here : Slot} {os : Origins}
    (hs : here.Accounted (some id) os instances) (there : Slot) :
    ({ there with cell := here.disclosedCell id } : Slot).Accounted none (here.disclosed id os)
      instances := by
  refine .inl fun v hv => ?_
  obtain ⟨f, hcell, hself, cell, labels⟩ | ⟨hshared, cell, labels⟩ := here.disclosed_cases id os
  · simp only [cell] at hv
    cases hv
    rw [labels]
    obtain hvalue | ⟨_, f', hhome, kept⟩ := hs
    · have accounted := hvalue (.function f) (by rw [hcell]; rfl)
      cases accounted.covered with
      | function hf =>
        obtain ⟨s, hs⟩ := hf
        refine ⟨.function ⟨s, rfl, hs⟩, fun g k hk => ?_⟩
        have shared := (accounted.right f k hk.2).2
        rw [shared] at hself
        exact absurd hself Bool.false_ne_true
    · cases hhome
      have same := kept.cell
      rw [hcell] at same
      cases same
      obtain ⟨s, hs⟩ := kept.covered
      refine ⟨.function ⟨s, rfl, hs⟩, ?_⟩
      rintro g k ⟨rfl, hk⟩
      obtain ⟨x, hx, hsame⟩ := (kept.right f k hk).2
      refine ⟨⟨x, hx, ?_⟩, rfl⟩
      rw [Function.sameInstance_iff] at hsame ⊢
      exact ⟨hsame.1, hsame.2.trans kept.names⟩
  · simp only [cell] at hv
    rw [labels]
    obtain hvalue | ⟨_, f, -, kept⟩ := hs
    · exact hvalue v hv
    · have tied := hshared f kept.cell
      rw [kept.ty, kept.self] at tied
      cases tied

theorem discloseSlots_accounted (hclosure : closure.Accounted (some id) labels instances)
    (hframe : frame.Accounted none into instances) {u : Unit}
    (h : discloseSlots id closure ts frame = (.ok u, g)) :
    g.Accounted none ((closure.disclosed id labels).carry ts into) instances := by
  induction ts generalizing frame into with
  | nil => cases h; exact hframe
  | cons t ts ih =>
    obtain ⟨_, w, hw, h⟩ := Run.bind_ok_iff.mp h
    obtain ⟨here, hhere, rfl⟩ := setCell_of_discloseSlot (Run.update_ok_iff.mp hw)
    refine ih (hframe.setCell fun there _ => ?_) h
    have accounted := (hclosure t.source here hhere).disclosed there
    simp only [Frame.disclosed, hhere]
    exact accounted

theorem writeParams_accounted {slots : List Nat} {args : List (Value × Origins)}
    (hargs : ∀ a ∈ args, a.1.Accounted a.2 instances)
    (hframe : frame.Accounted none labels instances) {u : Unit}
    (h : writeParams slots (args.map Prod.fst) frame = (.ok u, g)) :
    g.Accounted none (.params slots (args.map Prod.snd) labels) instances := by
  induction slots generalizing args frame labels with
  | nil => cases h; exact hframe
  | cons slot slots ih =>
    cases args with
    | nil => cases h; exact hframe
    | cons a rest =>
      obtain ⟨_, w, hw, h⟩ := Run.bind_ok_iff.mp h
      obtain ⟨ha, hrest⟩ := List.forall_mem_cons.mp hargs
      exact ih hrest (hframe.writeValue ha (Run.update_ok_iff.mp hw)) h

/-- **The frame that a body starts in is accounted for**, by its closure and its arguments. -/
theorem Body.enter_accounted {body : Body} {captured : Option (Nat × Frame)}
    {closures : Nat → Labels} {args : List (Value × Origins)}
    (hcaptured : ∀ id frame, captured = some (id, frame) →
      frame.Accounted (some id) (closures id) instances)
    (hargs : ∀ a ∈ args, a.1.Accounted a.2 instances) {u : Unit}
    (h : body.enter captured (args.map Prod.fst) (.allocate body.frame) = (.ok u, g)) :
    g.Accounted none (body.labels closures captured (args.map Prod.snd)) instances := by
  have fresh {labels : Labels} : (Frame.allocate body.frame).Accounted none labels instances :=
    .allocate body.frame
  obtain ⟨_, w, hdisclosed, h⟩ := Run.bind_ok_iff.mp h
  have written : writeParams body.params (args.map Prod.fst) w = (.ok u, g) := by
    split at h
    · obtain ⟨_, _, hfault, -⟩ := Run.bind_ok_iff.mp h
      cases hfault
    · exact h
  refine writeParams_accounted hargs ?_ written
  unfold disclose at hdisclosed
  split at hdisclosed
  · split at hdisclosed
    · cases hdisclosed; exact fresh
    · cases hdisclosed
  · next id frame =>
    split at hdisclosed
    · cases hdisclosed
    · exact discloseSlots_accounted (hcaptured id frame rfl) fresh hdisclosed

end

end TypedEval
