import TypedEval.Proofs.Discipline
import TypedEval.Proofs.Identity.Accounts

/-!
# Instances and what is kept of them

The instances of a ledger stay apart because each that has a closure has one that was made for it
(`Instances.Apart`): its number is that of no older closure. That no operation mixes up origins is the
work of `Traced.Kept`: labels and ledger account for every function of the activation and of the
store, and every operation of an activation keeps it so.
-/

namespace TypedEval

/-! ## Instances stay apart -/

/-- **An instance is as it was made**: of its target, without a closure just where it is bare, and
otherwise with one of the first `closures`. -/
structure Instance.Proper (x : Instance) (closures : Nat) : Prop where
  target : x.function.target = x.target
  bare : x.function.closureId? = none ↔ x.Bare
  named : ∀ id, x.function.closureId? = some id → id < closures

/-- **Instances are apart**: no two of them have one closure. -/
structure Instances.Apart (instances : List Instance) (closures : Nat) : Prop where
  proper : ∀ x ∈ instances, x.Proper closures
  distinct : ∀ (j k : Nat) (x y : Instance) (id : Nat), instances[j]? = some x →
    instances[k]? = some y → x.function.closureId? = some id → y.function.closureId? = some id →
    j = k

/-- An entry of a list that has grown by one is an old one or the new one. -/
theorem getElem?_concat_cases {α : Type} {l : List α} {x y : α} {k : Nat}
    (h : (l ++ [x])[k]? = some y) : l[k]? = some y ∨ k = l.length ∧ y = x := by
  rcases Nat.lt_trichotomy k l.length with hlt | rfl | hgt
  · rw [List.getElem?_append_left hlt] at h
    exact .inl h
  · rw [List.getElem?_concat_length] at h
    cases h
    exact .inr ⟨rfl, rfl⟩
  · rw [List.getElem?_eq_none (by rw [List.length_append, List.length_singleton]; omega)] at h
    cases h

namespace Instances.Apart

variable {instances : List Instance} {n m : Nat}

theorem empty : Apart [] n :=
  ⟨fun _ h => (nomatch h), fun _ _ _ _ _ h => by simp at h⟩

theorem mono (h : Apart instances n) (hle : n ≤ m) : Apart instances m :=
  ⟨fun x hx => { h.proper x hx with
    named := fun id hid => Nat.lt_of_lt_of_le ((h.proper x hx).named id hid) hle }, h.distinct⟩

/-- Another instance with a closure of its own, or with none. -/
theorem make (h : Apart instances n) {x : Instance} (hx : x.Proper n)
    (fresh : ∀ id, x.function.closureId? = some id →
      ∀ y ∈ instances, y.function.closureId? ≠ some id) : Apart (instances ++ [x]) n := by
  constructor
  · intro y hy
    obtain hy | hy := List.mem_append.mp hy
    · exact h.proper y hy
    · rw [List.mem_singleton.mp hy]
      exact hx
  · intro j k y z id hj hk hy hz
    obtain oldj | ⟨rfl, rfl⟩ := getElem?_concat_cases hj
    · obtain oldk | ⟨-, rfl⟩ := getElem?_concat_cases hk
      · exact h.distinct j k y z id oldj oldk hy hz
      · exact absurd hy (fresh id hz y (List.mem_of_getElem? oldj))
    · obtain oldk | ⟨rfl, -⟩ := getElem?_concat_cases hk
      · exact absurd hz (fresh id hy z (List.mem_of_getElem? oldk))
      · rfl

/-- **Two instances are the same function** only where nothing was captured, of one target. -/
theorem sameInstance_iff (h : Apart instances n) {j k : Nat} {x y : Instance}
    (hj : instances[j]? = some x) (hk : instances[k]? = some y) :
    x.function.sameInstance y.function = true ↔
      j = k ∨ x.Bare ∧ y.Bare ∧ x.target = y.target := by
  have hx := h.proper x (List.mem_of_getElem? hj)
  have hy := h.proper y (List.mem_of_getElem? hk)
  rw [Function.sameInstance_iff, hx.target, hy.target]
  constructor
  · rintro ⟨target, closure⟩
    cases hid : x.function.closureId? with
    | none => exact .inr ⟨hx.bare.mp hid, hy.bare.mp (closure ▸ hid), target⟩
    | some id => exact .inl (h.distinct j k x y id hj hk hid (closure ▸ hid))
  · rintro (rfl | ⟨barex, barey, target⟩)
    · rw [hj] at hk
      cases hk
      exact ⟨rfl, rfl⟩
    · exact ⟨target, (hx.bare.mpr barex).trans (hy.bare.mpr barey).symm⟩

end Instances.Apart

/-! ## What is kept -/

/-- **A ledger keeps account of a store.** -/
structure Traced.InStore (w : Traced Store) : Prop where
  closures : ∀ (id : Nat) (frame : Frame), w.state.closures[id]? = some frame →
    frame.Accounted (some id) (w.ledger.closures id) w.ledger.instances
  passed : ∀ p ∈ w.ledger.passed, p.1.Accounted p.2 w.ledger.instances
  made : ∀ (k : Nat) (target : Target) (capture : Capture) (f : Function),
    w.ledger.instances[k]? = some (.defined target capture f) →
      (.function f, {(f, .made k)}) ∈ w.ledger.passed
  apart : Instances.Apart w.ledger.instances w.state.closures.size

/-- The store of an activation, with the ledger. -/
def Traced.inStore (w : Traced Labelled) : Traced Store := ⟨w.state.activation.store, w.ledger⟩

/-- **Labels and ledger keep account of an activation.** -/
structure Traced.Kept (w : Traced Labelled) : Prop where
  frame : w.state.activation.frame.Accounted none w.state.slots w.ledger.instances
  store : w.inStore.InStore

/-- What a followed run on the store keeps: what was made stays. -/
def Discipline.tracedStore : Discipline (Traced Store) where
  holds w := w.InStore
  leads w u := w.ledger.instances <+: u.ledger.instances
  halts _ := True
  refl _ := List.prefix_rfl
  trans h k := h.trans k

/-- The same in an activation. -/
def Discipline.traced : Discipline (Traced Labelled) where
  holds w := w.Kept
  leads w u := w.ledger.instances <+: u.ledger.instances
  halts _ := True
  refl _ := List.prefix_rfl
  trans h k := h.trans k

namespace Traced

variable {α : Type} {w : Traced Labelled}

/-! ## Operations -/

/-- What leaves the activation alone leaves everything alone. -/
theorem act_look (hw : w.Kept) {m : Run Activation α}
    (h : (m w.state.activation).2 = w.state.activation) :
    (act m).Obeys .traced w fun v u => (m w.state.activation).1 = .ok v ∧ u = w := by
  rcases hm : m w.state.activation with ⟨r, a⟩
  rw [hm] at h
  simp only at h
  subst h
  have run : act m w = (r, w) := by simp only [act, plain, Run.focus, hm]
  cases r with
  | ok v => exact .of_ok run hw List.prefix_rfl ⟨rfl, rfl⟩
  | error e => exact .of_halt run hw List.prefix_rfl trivial

theorem act_check (hw : w.Kept) (x : Except Fault α) :
    (act (Run.check x)).Obeys .traced w fun v u => x = .ok v ∧ u = w := by
  cases x with
  | ok v => exact (act_look hw rfl).imp fun _ _ ⟨h, hu⟩ => ⟨by cases h; rfl, hu⟩
  | error e => exact (act_look hw rfl).imp fun _ _ ⟨h, _⟩ => (nomatch h)

theorem act_read (hw : w.Kept) (f : Activation → Except Fault α) :
    (act (Run.read f)).Obeys .traced w fun v u => f w.state.activation = .ok v ∧ u = w := by
  cases h : f w.state.activation with
  | ok v =>
    refine (act_look hw (by simp only [Run.read, Run.check, h])).imp fun _ _ ⟨hv, hu⟩ => ⟨?_, hu⟩
    simpa [Run.read, Run.check, h] using hv
  | error e =>
    refine (act_look hw (by simp only [Run.read, Run.check, h])).imp fun _ _ ⟨hv, _⟩ => ?_
    simp only [Run.read, Run.check, h] at hv
    cases hv

theorem act_fault (hw : w.Kept) (f : Fault) {p : α → Traced Labelled → Prop} :
    (act (Run.fault f : Run Activation α)).Obeys .traced w p :=
  (act_look hw rfl).imp fun _ _ ⟨h, _⟩ => (nomatch h)

/-- Values that are accounted for are passed. -/
theorem InStore.pass {w : Traced Store} (hw : w.InStore) {vs : List (Value × Origins)}
    (hvs : ∀ p ∈ vs, p.1.Accounted p.2 w.ledger.instances) :
    InStore ⟨w.state, w.ledger.pass vs⟩ :=
  ⟨hw.closures, fun p hp => (List.mem_append.mp hp).elim (hw.passed p) (hvs p),
    fun k target capture f h => List.mem_append_left vs (hw.made k target capture f h), hw.apart⟩

theorem InStore.note_pass {w : Traced Store} (hw : w.InStore) {vs : List (Value × Origins)}
    (hvs : ∀ p ∈ vs, p.1.Accounted p.2 w.ledger.instances) :
    (note (·.pass vs)).Obeys .tracedStore w
      fun _ u => u.ledger.instances = w.ledger.instances :=
  .of_ok rfl (hw.pass hvs) List.prefix_rfl rfl

theorem Kept.pass (hw : w.Kept) {vs : List (Value × Origins)}
    (hvs : ∀ p ∈ vs, p.1.Accounted p.2 w.ledger.instances) : Kept ⟨w.state, w.ledger.pass vs⟩ :=
  ⟨hw.frame, hw.store.pass hvs⟩

theorem note_pass (hw : w.Kept) {vs : List (Value × Origins)}
    (hvs : ∀ p ∈ vs, p.1.Accounted p.2 w.ledger.instances) :
    (note (·.pass vs)).Obeys .traced w
      fun _ u => u.ledger.instances = w.ledger.instances :=
  .of_ok rfl (hw.pass hvs) List.prefix_rfl rfl

theorem read_kept (hw : w.Kept) (family : Family) (slot : Nat) :
    (Traced.read family slot).Obeys .traced w
      fun x u => (family.box x.1).Accounted x.2 u.ledger.instances := by
  refine .bind (act_read hw _) ?_
  rintro x u hu - ⟨hx, rfl⟩
  have accounted := hu.frame.readAs hx
  refine .bind_of_ok (m := Traced.origins slot) rfl ?_
  refine .bind (note_pass hu (List.forall_mem_singleton.mpr accounted))
    fun _ v hv _ same => .pure hv ?_
  rw [same]
  exact accounted

theorem write_kept (hw : w.Kept) {slot : Nat} (family : Family) {x : Carrier family} {os : Origins}
    (hx : (family.box x).Accounted os w.ledger.instances) :
    (Traced.write slot family x os).Obeys .traced w fun _ u => u.ledger = w.ledger := by
  cases h : w.state.activation.frame.writeAs slot family x with
  | error e =>
    have run : act (Activation.updateFrame (·.writeAs slot family x)) w
        = (.error (.fault e []), w) := by
      simp only [act, plain, Activation.updateFrame, Run.focus, Run.update, h]
    exact .of_halt (Run.bind_halt run) hw List.prefix_rfl trivial
  | ok g =>
    have run : act (Activation.updateFrame (·.writeAs slot family x)) w
        = (.ok (), { w with state := { w.state with
            activation := { w.state.activation with frame := g } } }) := by
      simp only [act, plain, Activation.updateFrame, Run.focus, Run.update, h]
    exact .of_ok (Run.bind_ok run) ⟨hw.frame.writeAs hx h, hw.store⟩ List.prefix_rfl rfl

/-- The origins of a new instance account for it. -/
theorem accounted_next (l : Ledger) {x : Instance} (hx : x.function.isSelfReference = false) :
    (Value.function x.function).Accounted {(x.function, l.next)} (l.make x).instances := by
  refine ⟨.function ⟨_, rfl⟩, ?_⟩
  rintro f k h
  cases h
  exact ⟨⟨x, List.getElem?_concat_length, Function.sameInstance_iff.mpr ⟨rfl, rfl⟩⟩, hx⟩

/-- What is kept while an instance is made and values are passed, the function of a definition among
them. -/
theorem InStore.make {w : Traced Store} (hw : w.InStore) {x : Instance}
    (vs : List (Value × Origins)) (hx : x.Proper w.state.closures.size)
    (fresh : ∀ id, x.function.closureId? = some id →
      ∀ y ∈ w.ledger.instances, y.function.closureId? ≠ some id)
    (hvs : ∀ p ∈ vs, p.1.Accounted p.2 (w.ledger.make x).instances)
    (defined : ∀ target capture f, x = .defined target capture f →
      (.function f, {(f, w.ledger.next)}) ∈ vs) :
    InStore ⟨w.state, (w.ledger.make x).pass vs⟩ where
  closures id frame h := (hw.closures id frame h).mono (List.prefix_append ..)
  passed p hp := (List.mem_append.mp hp).elim
    (fun hp => (hw.passed p hp).mono (List.prefix_append ..)) (hvs p)
  made k target capture f h := by
    obtain old | ⟨rfl, new⟩ := getElem?_concat_cases h
    · exact List.mem_append_left vs (hw.made k target capture f old)
    · exact List.mem_append_right _ (defined target capture f new.symm)
  apart := hw.apart.make hx fresh

/-- A new closure that is accounted for. -/
theorem InStore.addClosure {w : Traced Store} (hw : w.InStore) {frame : Frame} (labels : Labels)
    (hframe : frame.Accounted (some w.state.closures.size) labels w.ledger.instances) :
    InStore ⟨(w.state.addClosure frame).2, w.ledger.setClosure w.state.closures.size labels⟩ where
  closures id old h := by
    by_cases hid : id = w.state.closures.size
    · subst hid
      rw [Store.getElem?_addClosure_self] at h
      cases h
      simp only [Ledger.setClosure, Function.update_self]
      exact hframe
    · simp only [Ledger.setClosure, Function.update_of_ne hid]
      refine hw.closures id old ?_
      simpa [Store.addClosure, Array.getElem?_push, hid] using h
  passed := hw.passed
  made := hw.made
  apart := hw.apart.mono (by simp [Store.addClosure])

/-- Another closure under an old number, that is accounted for. -/
theorem InStore.setClosure {w : Traced Store} (hw : w.InStore) {id : Nat} {old frame : Frame}
    {labels : Labels} (hold : w.state.closures[id]? = some old)
    (hframe : frame.Accounted (some id) labels w.ledger.instances) :
    InStore ⟨w.state.setClosure id frame, w.ledger.setClosure id labels⟩ where
  closures k other h := by
    by_cases hk : k = id
    · subst hk
      rw [Store.getElem?_setClosure_self hold] at h
      cases h
      simp only [Ledger.setClosure, Function.update_self]
      exact hframe
    · rw [Store.getElem?_setClosure_ne (Ne.symm hk)] at h
      simp only [Ledger.setClosure, Function.update_of_ne hk]
      exact hw.closures k other h
  passed := hw.passed
  made := hw.made
  apart := hw.apart.mono (by simp [Store.setClosure])

/-- Labels for a closure that is not there yet. -/
theorem InStore.setClosure_size {w : Traced Store} (hw : w.InStore) (labels : Labels) :
    InStore ⟨w.state, w.ledger.setClosure w.state.closures.size labels⟩ where
  closures id frame h := by
    have hne : id ≠ w.state.closures.size :=
      Nat.ne_of_lt (Array.getElem?_eq_some_iff.mp h).1
    simp only [Ledger.setClosure, Function.update_of_ne hne]
    exact hw.closures id frame h
  passed := hw.passed
  made := hw.made
  apart := hw.apart

/-- A definition that has given a function. -/
theorem define_of_ok (hw : w.Kept) {target : Target} {capture : Capture} {f : Function}
    {store : Store}
    (run : instantiate target capture w.state.activation
      = (.ok f, { w.state.activation with store }))
    (kept : InStore ⟨store, w.ledger.setClosure w.state.activation.store.closures.size
      (w.state.slots.carry capture.transfers .none)⟩)
    (proper : (Instance.defined target capture f).Proper store.closures.size)
    (fresh : ∀ id, f.closureId? = some id →
      ∀ y ∈ w.ledger.instances, y.function.closureId? ≠ some id)
    (shared : f.isSelfReference = false) :
    (Traced.define target capture).Obeys .traced w
      fun x u => (Value.function x.1).Accounted x.2 u.ledger.instances := by
  have account := accounted_next (w.ledger.setClosure w.state.activation.store.closures.size
    (w.state.slots.carry capture.transfers .none)) (x := .defined target capture f) shared
  have made := kept.make [(.function f, {(f, w.ledger.next)})] proper fresh
    (List.forall_mem_singleton.mpr account)
    (by rintro _ _ _ ⟨⟩; exact List.mem_singleton_self _)
  refine .of_ok (a := (f, {(f, w.ledger.next)}))
    (t := ⟨{ w.state with activation := { w.state.activation with store } }, _⟩) ?_
    ⟨hw.frame.mono (List.prefix_append ..), made⟩ (List.prefix_append ..) account
  simp only [Traced.define, run]
  rfl

/-- **A definition makes an instance** that is apart from all others. -/
theorem define_kept (hw : w.Kept) (target : Target) (capture : Capture) :
    (Traced.define target capture).Obeys .traced w
      fun x u => (Value.function x.1).Accounted x.2 u.ledger.instances := by
  have apart := hw.store.apart
  obtain ⟨hempty, run⟩ | ⟨e, -, run⟩ | ⟨frame, hframe, run⟩ :=
    instantiate_cases target capture w.state.activation
  · exact define_of_ok hw run (hw.store.setClosure_size _)
      ⟨rfl, ⟨fun _ => hempty, fun _ => rfl⟩, fun _ h => (nomatch h)⟩ (fun _ h => (nomatch h)) rfl
  · exact .of_halt (e := .fault e []) (by simp only [Traced.define, run]) hw List.prefix_rfl trivial
  · have captured : frame.Accounted (some w.state.activation.store.closures.size)
        (w.state.slots.carry capture.transfers .none) w.ledger.instances :=
      copySlots_accounted hw.frame (.allocate capture.closure) hframe
    have hcaptures : capture.transfers ≠ [] := by
      intro hempty
      simp [instantiate, Capture.take, hempty] at run
    refine define_of_ok hw run (hw.store.addClosure _ captured) ⟨rfl, ?_, ?_⟩ ?_ rfl
    · exact ⟨fun h => (nomatch h), fun hempty => absurd hempty hcaptures⟩
    · rintro _ ⟨⟩
      simp [Store.addClosure, ClosureRef.id]
    · rintro _ ⟨⟩ y hy named
      exact Nat.lt_irrefl _ ((apart.proper y hy).named _ named)

/-! ## Recursive bindings -/

/-- A closure in which nothing is written yet. -/
theorem act_addClosure (hw : w.Kept) (layout : Layout) :
    (act (Activation.onStore fun s =>
        match s.addClosure (.allocate layout) with
        | (id, s) => (.ok id, s))).Obeys .traced w fun id u =>
      id = w.state.activation.store.closures.size ∧
        u.state.activation.store.closures.size = id + 1 ∧ u.ledger = w.ledger := by
  have added := hw.store.addClosure (w.ledger.closures w.state.activation.store.closures.size)
    (.allocate layout)
  have same : w.ledger.setClosure w.state.activation.store.closures.size
      (w.ledger.closures w.state.activation.store.closures.size) = w.ledger := by
    simp only [Ledger.setClosure, Function.update_eq_self]
  refine .of_ok (t := ⟨{ w.state with activation := { w.state.activation with
    store := (w.state.activation.store.addClosure (.allocate layout)).2 } }, w.ledger⟩) rfl
    ⟨hw.frame, ?_⟩ List.prefix_rfl ⟨rfl, ?_, rfl⟩
  · rw [show w.inStore.ledger = w.ledger from rfl, show w.inStore.state = w.state.activation.store
      from rfl, same] at added
    exact added
  · simp [Store.addClosure]

theorem makeBound_kept (hw : w.Kept) {f : Function}
    (hf : (Instance.bound f).Proper w.state.activation.store.closures.size)
    (fresh : ∀ id, f.closureId? = some id →
      ∀ y ∈ w.ledger.instances, y.function.closureId? ≠ some id)
    (shared : f.isSelfReference = false) :
    (make (.bound f)).Obeys .traced w fun os u =>
      (Value.function f).Accounted os u.ledger.instances := by
  have made := hw.store.make [] hf fresh (fun _ h => (nomatch h)) (fun _ _ _ h => (nomatch h))
  have same : (w.ledger.make (.bound f)).pass [] = w.ledger.make (.bound f) := by
    simp only [Ledger.pass, List.append_nil]
  rw [show w.inStore.ledger = w.ledger from rfl, same] at made
  exact .of_ok rfl ⟨hw.frame.mono (List.prefix_append ..), made⟩ (List.prefix_append ..)
    (accounted_next w.ledger (x := .bound f) shared)

/-- **A function that gets a closure is another instance.** Its closure is the newest one. -/
theorem ensure_kept (hw : w.Kept) (slot : Nat) {f : Function} {os : Origins}
    (hf : (Value.function f).Accounted os w.ledger.instances) :
    (Traced.ensure slot f os).Obeys .traced w fun r u =>
      r.2.1.closureId? = some r.1 ∧ (Value.function r.2.1).Accounted r.2.2 u.ledger.instances := by
  refine .bind (act_read hw _) ?_
  rintro closure u hu - ⟨hclosure, rfl⟩
  have hclosure := lift_defect_eq_ok.mp hclosure
  cases closure with
  | some found => exact .pure hu ⟨Function.closureId?_of_closureIn hclosure, hf⟩
  | none =>
    simp only
    cases htarget : f.target.closure with
    | none => exact .bind (act_read hu _) fun _ v hv _ _ => act_fault hv _
    | some layout =>
      refine .bind (act_addClosure hu layout) ?_
      rintro id v hv - ⟨hid, hsize, hledger⟩
      have bound : (Instance.bound (f.withClosure id)).Proper
          v.state.activation.store.closures.size := by
        refine ⟨rfl, ⟨fun h => (nomatch h), False.elim⟩, ?_⟩
        rintro _ ⟨⟩
        rw [hsize]
        exact Nat.lt_succ_self id
      have fresh (k : Nat) (hk : (f.withClosure id).closureId? = some k) (y : Instance)
          (hy : y ∈ v.ledger.instances) : y.function.closureId? ≠ some k := by
        intro named
        cases hk
        rw [hledger] at hy
        have older := (hu.store.apart.proper y hy).named id named
        rw [hid] at older
        exact Nat.lt_irrefl _ older
      refine .bind (makeBound_kept hv bound fresh rfl) fun os t ht _ account => ?_
      refine .bind (write_kept ht .function account) fun _ s hs _ same => ?_
      refine .pure hs ⟨rfl, ?_⟩
      rw [same]
      exact account

/-- The self-reference of a function is a slot that its closure may have. -/
theorem keepsSelf_selfReference {instances : List Instance} {there : Slot} {id : Nat}
    {f : Function} {os : Origins} (names : f.closureId? = some id)
    (hty : there.ty = f.selfReference.ty) (hf : (Value.function f).Accounted os instances) :
    Slot.KeepsSelf { there with cell := .reference (.function f.selfReference) } id f.selfReference
      (os.standing f f.selfReference) instances where
  cell := rfl
  ty := hty
  self := by
    obtain ⟨target, closure⟩ := f
    cases closure with
    | none => cases names
    | some c => rfl
  names := by rw [Function.closureId?_selfReference, names]
  covered := by
    cases hf.covered with
    | function h =>
      obtain ⟨s, hs⟩ := h
      exact ⟨s, rfl, hs⟩
  right := by
    rintro g k ⟨rfl, hk⟩
    obtain ⟨x, hx, same⟩ := (hf.right f k hk).1
    refine ⟨rfl, x, hx, ?_⟩
    rw [Function.sameInstance_iff] at same ⊢
    exact ⟨same.1, same.2.trans (Function.closureId?_selfReference f).symm⟩

/-- **A function is kept in its own closure** as a self-reference of the same origins. -/
theorem keepSelf_kept (hw : w.Kept) {id : Nat} (closureSlot : Nat) {f : Function} {os : Origins}
    (names : f.closureId? = some id) (hf : (Value.function f).Accounted os w.ledger.instances) :
    (Traced.keepSelf id closureSlot f os).Obeys .traced w fun _ _ => True := by
  have halted {e : Fault}
      (h : act (Activation.onStore (writeSelf id closureSlot f)) w = (.error (.fault e []), w)) :
      (Traced.keepSelf id closureSlot f os).Obeys .traced w fun _ _ => True :=
    .of_halt (Run.bind_halt h) hw List.prefix_rfl trivial
  cases hframe : w.state.activation.store.closures[id]? with
  | none =>
    refine halted (e := .defect (.lostClosure f.displayName)) ?_
    simp only [act, plain, Activation.onStore, writeSelf, Run.focus, Run.update, hframe]
  | some frame =>
    cases hwrite : frame.writeFunction closureSlot f.selfReference with
    | error e =>
      refine halted (e := e) ?_
      simp only [act, plain, Activation.onStore, writeSelf, Run.focus, Run.update, hframe, hwrite]
      rfl
    | ok g =>
      have run : act (Activation.onStore (writeSelf id closureSlot f)) w
          = (.ok (), { w with state := { w.state with activation := { w.state.activation with
              store := w.state.activation.store.setClosure id g } } }) := by
        simp only [act, plain, Activation.onStore, writeSelf, Run.focus, Run.update, hframe, hwrite]
        rfl
      obtain ⟨rfl, there, hthere, hty⟩ := Frame.setCell_of_writeFunction hwrite
      have kept : (frame.setCell closureSlot (.reference (.function f.selfReference))).Accounted
          (some id) (Function.update (w.ledger.closures id) closureSlot
            (os.standing f f.selfReference)) w.ledger.instances := by
        refine (hw.store.closures id frame hframe).setCell fun s hs => ?_
        rw [hthere] at hs
        cases hs
        exact .inr ⟨id, _, rfl, keepsSelf_selfReference names hty hf⟩
      exact .of_ok (Run.bind_ok run) ⟨hw.frame, hw.store.setClosure hframe kept⟩ List.prefix_rfl
        trivial

theorem tie_kept (hw : w.Kept) (slot closureSlot : Nat) :
    (Traced.tie slot closureSlot).Obeys .traced w fun _ _ => True := by
  refine .bind (act_read hw _) ?_
  rintro f u hu - ⟨hf, rfl⟩
  have account : (Value.function f).Accounted (u.state.slots slot) u.ledger.instances :=
    hu.frame.readAs (show u.state.activation.frame.readAs .function slot = .ok f from hf)
  refine .bind_of_ok (m := Traced.origins slot) rfl ?_
  refine .bind (ensure_kept hu slot account) ?_
  rintro ⟨id, g, os⟩ v hv - ⟨names, hg⟩
  exact keepSelf_kept hv closureSlot names hg

/-! ## Calls from an activation -/

/-- A run that keeps account of the store, seen from an activation. -/
theorem onStore_kept {m : Run (Traced Store) α} (hw : w.Kept) {p : α → Traced Store → Prop}
    (h : m.Obeys .tracedStore w.inStore p) :
    (onStore m).Obeys .traced w fun x u => p x u.inStore :=
  h.focus (fun _ ht more => ⟨⟨hw.frame.mono more, ht⟩, more⟩) (fun _ _ hp => hp) fun _ _ => trivial

/-- A new number for a storage concerns no function. -/
theorem InStore.newStorage {w : Traced Store} (hw : w.InStore) :
    InStore ⟨(Store.newStorage w.state).2, w.ledger⟩ :=
  ⟨hw.closures, hw.passed, hw.made, hw.apart⟩

theorem newStorage_kept (hw : w.Kept) :
    (act (Activation.onStore Store.newStorage)).Obeys .traced w
      fun _ u => u.ledger = w.ledger :=
  .of_ok (t := ⟨{ w.state with activation := { w.state.activation with
      store := (Store.newStorage w.state.activation.store).2 } }, w.ledger⟩) rfl
    ⟨hw.frame, hw.store.newStorage⟩ List.prefix_rfl rfl

end Traced

end TypedEval
