import TypedEval.Call
import TypedEval.Proofs.Closure.Lasting
import TypedEval.Proofs.Renaming.Frames

/-!
# Runs under new numbers

Two runs are compared in states that differ by a relabeling. `Run.Follows` is that comparison: from
related states they end in related states, one in a value and the other in its image, or both in the
same halt. It composes along `>>=`, so it passes from single operations to whole evaluations.

A store is **renamed** to another when each closure of the first is in the second under its new number
and renamed itself, and the next numbers that the two give out correspond (`Store.Renamed`). The second
may hold further closures, which no number leads to. Making a closure and writing to one keep stores
renamed where the relabeling is one-to-one.

The next numbers are looked at only up to those of a last store, and the first run is followed if it
does not go beyond that store. So a relabeling may be free in all numbers that a run does not give out,
and what such a relabeling leaves alone holds none of them.
-/

namespace TypedEval

/-! ## Two runs side by side -/

/-- **How two runs are compared**: by states that are related, up to the states that it covers. -/
structure Comparison (σ : Type) where
  related : σ → σ → Prop
  covers : σ → Prop

namespace Run

variable {σ τ α β γ δ : Type} {C : Comparison σ} {g : α → β} {h : γ → δ}

/-- **One run follows another**, in a value and its image or in the same halt, from related states to
related states. What the first one ends in is covered only if what it starts from is. -/
def Follows (C : Comparison σ) (g : α → β) (m : Run σ α) (n : Run σ β) : Prop :=
  ∀ s, C.covers (m s).2 →
    C.covers s ∧ ∀ t, C.related s t → (n t).1 = (m s).1.map g ∧ C.related (m s).2 (n t).2

namespace Follows

theorem pure (a : α) : Follows C g (Pure.pure a) (Pure.pure (g a)) :=
  fun _ hs => ⟨hs, fun _ hst => ⟨rfl, hst⟩⟩

/-- What a run ends in, renamed. -/
theorem ends {a : α} {b : β} (hb : b = g a) : Follows C g (Pure.pure a) (Pure.pure b) :=
  hb ▸ pure a

theorem halt (e : Halt) : Follows C g (Run.halt e) (Run.halt e) :=
  fun _ hs => ⟨hs, fun _ hst => ⟨rfl, hst⟩⟩

theorem read {f : σ → Except Fault α} {f' : σ → Except Fault β}
    (hf : ∀ s t, C.related s t → f' t = (f s).map g) : Follows C g (Run.read f) (Run.read f') := by
  intro s
  unfold Run.read
  cases hs : f s with
  | error e =>
    refine fun covered => ⟨covered, fun t hst => ?_⟩
    rw [hf s t hst, hs]
    exact ⟨rfl, hst⟩
  | ok a =>
    refine fun covered => ⟨covered, fun t hst => ?_⟩
    rw [hf s t hst, hs]
    exact ⟨rfl, hst⟩

theorem check {x : Except Fault α} {y : Except Fault β} (hx : y = x.map g) :
    Follows C g (Run.check x) (Run.check y) := by
  show Follows C g (Run.read fun _ => x) (Run.read fun _ => y)
  exact read fun _ _ _ => hx

/-- A check whose result has no numbers. -/
theorem same {x y : Except Fault α} {g : α → α} (hx : y = x) (hg : ∀ a, g a = a) :
    Follows C g (Run.check x) (Run.check y) := by
  refine check ?_
  subst hx
  cases y with
  | error e => rfl
  | ok a => exact congrArg Except.ok (hg a).symm

theorem defect {x : Except Defect α} {y : Except Defect β} (hx : y = x.map g) :
    Follows C g (Run.check (liftM x)) (Run.check (liftM y)) :=
  check (by rw [hx, lift_defect_map])

theorem update {f f' : σ → Except Fault σ}
    (hf : ∀ s t, C.related s t → (∃ e, f s = .error e ∧ f' t = .error e) ∨
      ∃ s' t', f s = .ok s' ∧ f' t = .ok t' ∧ C.related s' t')
    (hcovers : ∀ s s', f s = .ok s' → C.covers s' → C.covers s) :
    Follows C id (Run.update f) (Run.update f') := by
  intro s covered
  refine ⟨?_, fun t hst => ?_⟩
  · unfold Run.update at covered
    cases hs : f s with
    | error e => rw [hs] at covered; exact covered
    | ok s' => rw [hs] at covered; exact hcovers s s' hs covered
  · unfold Run.update
    obtain ⟨e, hs, ht⟩ | ⟨s', t', hs, ht, hst'⟩ := hf s t hst
    · rw [hs, ht]
      exact ⟨rfl, hst⟩
    · rw [hs, ht]
      exact ⟨rfl, hst'⟩

theorem bind {m : Run σ α} {n : Run σ β} {k : α → Run σ γ} {l : β → Run σ δ}
    (hm : Follows C g m n) (hk : ∀ a, Follows C h (k a) (l (g a))) :
    Follows C h (m >>= k) (n >>= l) := by
  intro s covered
  have first := hm s
  rcases hs : m s with ⟨r, s'⟩
  rw [hs] at first
  cases r with
  | error e =>
    rw [bind_halt hs] at covered ⊢
    refine ⟨(first covered).1, fun t hst => ?_⟩
    obtain ⟨value, after⟩ := (first covered).2 t hst
    rcases ht : n t with ⟨r', t'⟩
    rw [ht] at value after
    cases value
    rw [bind_halt ht]
    exact ⟨rfl, after⟩
  | ok a =>
    rw [bind_ok hs] at covered ⊢
    obtain ⟨between, rest⟩ := hk a s' covered
    refine ⟨(first between).1, fun t hst => ?_⟩
    obtain ⟨value, after⟩ := (first between).2 t hst
    rcases ht : n t with ⟨r', t'⟩
    rw [ht] at value after
    cases value
    rw [bind_ok ht]
    exact rest t' after

theorem mapHalt {m : Run σ α} {n : Run σ β} (hm : Follows C g m n) (f : Halt → Halt) :
    Follows C g (m.mapHalt f) (n.mapHalt f) := by
  intro s covered
  have same {ε : Type} (m : Run σ ε) (s : σ) : (m.mapHalt f s).2 = (m s).2 := by
    unfold Run.mapHalt
    split <;> simp_all
  rw [same] at covered
  refine ⟨(hm s covered).1, fun t hst => ?_⟩
  obtain ⟨value, after⟩ := (hm s covered).2 t hst
  rw [same, same]
  refine ⟨?_, after⟩
  rcases hs : m s with ⟨r, s'⟩
  rcases ht : n t with ⟨r', t'⟩
  rw [hs, ht] at value
  cases value
  cases r <;> simp only [Run.mapHalt, hs, ht] <;> rfl

theorem focus {D : Comparison τ} {get : σ → τ} {set : σ → τ → σ} {m : Run τ α} {n : Run τ β}
    (hm : Follows D g m n) (part : ∀ s t, C.related s t → D.related (get s) (get t))
    (whole : ∀ s t, C.related s t → ∀ x y, D.related x y → C.related (set s x) (set t y))
    (covered : ∀ s x, C.covers (set s x) → D.covers x)
    (covers : ∀ s x, C.covers (set s x) → D.covers (get s) → C.covers s) :
    Follows C g (Run.focus get set m) (Run.focus get set n) := by
  intro s hs
  obtain ⟨before, follows⟩ := hm (get s) (covered s _ hs)
  refine ⟨covers s _ hs before, fun t hst => ?_⟩
  obtain ⟨value, after⟩ := follows _ (part s t hst)
  exact ⟨value, whole s t hst _ _ after⟩

end Follows

end Run

/-! ## Frames -/

/-- Frames of which one is the renaming of the other. -/
def Comparison.frames (ρ : Relabeling) : Comparison Frame :=
  ⟨fun f g => g = f.rename ρ, fun _ => True⟩

section

variable {ρ : Relabeling}

/-- A change of frames that passes to renamed frames. -/
theorem Run.Follows.updateRenamed {f f' : Frame → Except Fault Frame}
    (hf : ∀ frame, f' (frame.rename ρ) = (f frame).map (Frame.rename ρ)) :
    Run.Follows (.frames ρ) id (Run.update f) (Run.update f') := by
  refine .update ?_ fun _ _ _ _ => trivial
  rintro frame _ rfl
  rw [hf frame]
  cases f frame with
  | error e => exact .inl ⟨e, rfl, rfl⟩
  | ok g => exact .inr ⟨g, _, rfl, rfl, rfl⟩

theorem discloseSlots_follows (i : Nat) (closure : Frame) (ts : List Transfer) :
    Run.Follows (.frames ρ) id (discloseSlots i closure ts)
      (discloseSlots (ρ.closures i) (closure.rename ρ) ts) := by
  induction ts with
  | nil => exact .pure ()
  | cons t ts ih =>
    exact .bind (.updateRenamed fun frame => discloseSlot_rename ρ i closure t frame) fun _ => ih

/-- The number and contents of a closure under new numbers. -/
def renameClosure (ρ : Relabeling) (closure : Nat × Frame) : Nat × Frame :=
  (ρ.closures closure.1, closure.2.rename ρ)

theorem disclose_follows (ts : List Transfer) (closure : Option (Nat × Frame)) :
    Run.Follows (.frames ρ) id (disclose ts closure)
      (disclose ts (closure.map (renameClosure ρ))) := by
  cases closure with
  | none =>
    unfold disclose
    simp only [Option.map_none]
    split
    · exact .pure ()
    · exact .halt _
  | some closure =>
    unfold disclose
    simp only [Option.map_some]
    split
    · exact .halt _
    · exact discloseSlots_follows _ _ ts

theorem writeParams_follows (slots : List Nat) (args : List Value) :
    Run.Follows (.frames ρ) id (writeParams slots args)
      (writeParams slots (args.map (Value.rename ρ))) := by
  induction slots generalizing args with
  | nil => exact .pure ()
  | cons slot slots ih =>
    cases args with
    | nil => exact .pure ()
    | cons v vs =>
      exact .bind (.updateRenamed fun frame => frame.writeValue_rename ρ slot v) fun _ => ih vs

/-- **The frame of a call with renamed closure and arguments** is prepared as the renamed frame. -/
theorem Body.enter_follows (ρ : Relabeling) (b : Body) (closure : Option (Nat × Frame))
    (args : List Value) :
    Run.Follows (.frames ρ) id (b.enter closure args)
      (b.enter (closure.map (renameClosure ρ)) (args.map (Value.rename ρ))) := by
  refine .bind (disclose_follows _ closure) fun _ => ?_
  simp only [List.length_map]
  split
  · exact .bind (g := id) (.halt _) fun _ => writeParams_follows _ args
  · exact writeParams_follows _ args

end

/-! ## Stores -/

/-- **A store is renamed to another**, up to the numbers that a last store has given out. -/
structure Store.Renamed (ρ : Relabeling) (s t last : Store) : Prop where
  closures : ∀ i : Nat, t.closures[ρ.closures i]? = s.closures[i]?.map (Frame.rename ρ)
  nextClosures : ∀ k, s.closures.size + k < last.closures.size →
    ρ.closures (s.closures.size + k) = t.closures.size + k
  nextStorages : ∀ k, s.storages + k < last.storages → ρ.storages (s.storages + k) = t.storages + k

/-- Stores of which one is renamed to the other. -/
def Comparison.stores (ρ : Relabeling) (last : Store) : Comparison Store :=
  ⟨fun s t => s.Renamed ρ t last, fun s => s.UpTo last⟩

/-- Activations of which one is renamed to the other, in its frame and its store. -/
def Comparison.activations (ρ : Relabeling) (last : Store) : Comparison Activation where
  related a b := b.frame = a.frame.rename ρ ∧ a.store.Renamed ρ b.store last
  covers a := a.store.UpTo last

namespace Store.Renamed

variable {ρ : Relabeling} {last s t : Store}

/-- The next closure of the one store is the next closure of the other. -/
theorem next (hst : s.Renamed ρ t last) (h : s.closures.size < last.closures.size) :
    t.closures.size = ρ.closures s.closures.size :=
  (hst.nextClosures 0 h).symm

theorem addClosure (hρ : ρ.OneToOne) (hst : s.Renamed ρ t last)
    (h : s.closures.size < last.closures.size) (frame : Frame) :
    (s.addClosure frame).2.Renamed ρ (t.addClosure (frame.rename ρ)).2 last := by
  refine ⟨?_, ?_, hst.nextStorages⟩
  · intro i
    simp only [Store.addClosure, Array.getElem?_push, hst.next h]
    by_cases hi : i = s.closures.size
    · simp [hi]
    · have other : ρ.closures i ≠ ρ.closures s.closures.size := fun h => hi (hρ.closures h)
      simp [hi, other, hst.closures i]
  · intro k hk
    simp only [Store.addClosure, Array.size_push] at hk ⊢
    rw [Nat.add_assoc] at hk
    have ahead := hst.nextClosures (1 + k) hk
    rw [← Nat.add_assoc, ← Nat.add_assoc] at ahead
    exact ahead

theorem setClosure (hρ : ρ.OneToOne) (hst : s.Renamed ρ t last) (id : Nat) (frame : Frame) :
    (s.setClosure id frame).Renamed ρ (t.setClosure (ρ.closures id) (frame.rename ρ)) last := by
  refine ⟨?_, ?_, hst.nextStorages⟩
  · intro i
    simp only [Store.setClosure, Array.getElem?_modify, hst.closures i]
    by_cases hi : id = i
    · subst hi
      cases s.closures[id]? <;> simp
    · have other : ρ.closures id ≠ ρ.closures i := fun h => hi (hρ.closures h)
      simp [hi, other]
  · simpa only [Store.setClosure, Array.size_modify] using hst.nextClosures

end Store.Renamed

section

variable {ρ : Relabeling} {last : Store}

theorem newStorage_follows :
    Run.Follows (.stores ρ last) ρ.storages Store.newStorage Store.newStorage := by
  intro s covered
  have free : s.storages < last.storages := covered.storages
  refine ⟨⟨covered.closures, Nat.le_of_lt free⟩, fun t hst => ?_⟩
  refine ⟨congrArg Except.ok (hst.nextStorages 0 free).symm, hst.closures, hst.nextClosures,
    fun k hk => ?_⟩
  simp only [Store.newStorage] at hk ⊢
  rw [Nat.add_assoc] at hk
  have ahead := hst.nextStorages (1 + k) hk
  rw [← Nat.add_assoc, ← Nat.add_assoc] at ahead
  exact ahead

/-- A closure with renamed contents is made under the new number. -/
theorem addClosure_follows (hρ : ρ.OneToOne) (frame : Frame) :
    Run.Follows (.stores ρ last) ρ.closures
      (fun s => (.ok (s.addClosure frame).1, (s.addClosure frame).2))
      (fun t => (.ok (t.addClosure (frame.rename ρ)).1, (t.addClosure (frame.rename ρ)).2)) := by
  intro s covered
  have free : s.closures.size < last.closures.size := by
    have size := covered.closures
    simp only [Store.addClosure, Array.size_push] at size
    exact size
  refine ⟨⟨Nat.le_of_lt free, covered.storages⟩, fun t hst => ?_⟩
  exact ⟨congrArg Except.ok (hst.next free), hst.addClosure hρ free frame⟩

/-- A renamed function has its closure under the new number. -/
theorem Function.closureIn_rename {s t : Store} (hst : s.Renamed ρ t last) (f : Function) :
    (f.rename ρ).closureIn t = (f.closureIn s).map (Option.map (renameClosure ρ)) := by
  unfold closureIn
  rw [f.closureId?_rename]
  cases f.closureId? with
  | none => rfl
  | some id =>
    simp only [Option.map_some, hst.closures id]
    cases s.closures[id]? <;> rfl

namespace Run.Follows

variable {α β : Type} {g : α → β}

theorem onStore {m : Run Store α} {n : Run Store β} (hm : Follows (.stores ρ last) g m n) :
    Follows (.activations ρ last) g (Activation.onStore m) (Activation.onStore n) :=
  .focus hm (fun _ _ hab => hab.2) (fun _ _ hab _ _ hst => ⟨hab.1, hst⟩) (fun _ _ h => h)
    (fun _ _ _ h => h)

theorem updateFrame {f f' : Frame → Except Fault Frame}
    (hf : ∀ frame, f' (frame.rename ρ) = (f frame).map (Frame.rename ρ)) :
    Follows (.activations ρ last) id (Activation.updateFrame f) (Activation.updateFrame f') :=
  .focus (.updateRenamed hf) (fun _ _ hab => hab.1) (fun _ _ hab _ _ hfg => ⟨hfg, hab.2⟩)
    (fun _ _ _ => trivial) (fun _ _ h _ => h)

theorem readFrame {f : Frame → Except Fault α} {f' : Frame → Except Fault β}
    (hf : ∀ frame, f' (frame.rename ρ) = (f frame).map g) :
    Follows (.activations ρ last) g (Activation.readFrame f) (Activation.readFrame f') := by
  refine .read fun a b hab => ?_
  rw [hab.1]
  exact hf a.frame

end Run.Follows

/-! ## Definitions and recursive bindings -/

/-- A definition as a chain of steps: what it captures is read, and becomes a closure. -/
theorem instantiate_eq (target : Target) (capture : Capture) :
    instantiate target capture =
      if capture.transfers.isEmpty then pure ⟨target, none⟩
      else do
        let closure ← Activation.readFrame capture.snapshot
        let id ← Activation.onStore fun s => (.ok (s.addClosure closure).1, (s.addClosure closure).2)
        return ⟨target, some (.shared id)⟩ := by
  funext a
  by_cases hempty : capture.transfers.isEmpty = true
  · simp [instantiate, Capture.take, hempty]
  · cases hs : capture.snapshot a.frame with
    | error e =>
      have halted : Activation.readFrame capture.snapshot a = (.error (.fault e []), a) := by
        simp [Activation.readFrame, Run.read, Run.check, hs]
      simp [instantiate, Capture.take, hempty, hs, Run.bind_halt halted]
    | ok closure =>
      have captured : Activation.readFrame capture.snapshot a = (.ok closure, a) := by
        simp [Activation.readFrame, Run.read, Run.check, hs]
      simp [instantiate, Capture.take, hempty, hs, Run.bind_ok captured]
      rfl

variable (hρ : ρ.OneToOne)

include hρ

theorem instantiate_follows (target : Target) (capture : Capture) :
    Run.Follows (.activations ρ last) (Function.rename ρ) (instantiate target capture)
      (instantiate target capture) := by
  rw [instantiate_eq]
  split
  · exact .pure _
  · refine .bind (.readFrame (capture.snapshot_rename ρ)) fun closure => ?_
    exact .bind (.onStore (addClosure_follows hρ closure)) fun id => .pure _

theorem ensureClosure_follows (slot : Nat) (f : Function) :
    Run.Follows (.activations ρ last) (fun r => (ρ.closures r.1, r.2.rename ρ))
      (ensureClosure slot f) (ensureClosure slot (f.rename ρ)) := by
  refine .bind (g := Option.map (renameClosure ρ)) (.read fun a b hab => ?_) fun r => ?_
  · rw [f.closureIn_rename hab.2, lift_defect_map]
  cases r with
  | some closure => exact .pure _
  | none =>
    simp only [Option.map_none, Function.target_rename]
    cases f.target.closure with
    | none =>
      refine .bind (g := Slot.rename ρ) (.readFrame fun frame => ?_) fun s => .halt _
      rw [frame.slot_rename, lift_defect_map]
    | some layout =>
      have made : Run.Follows (.stores ρ last) ρ.closures _ _ :=
        addClosure_follows hρ (.allocate layout)
      rw [Frame.rename_allocate] at made
      refine .bind (.onStore made) fun id => ?_
      exact .bind (.updateFrame fun frame => frame.writeFunction_rename ρ slot (f.withClosure id))
        fun _ => .pure _

theorem writeSelf_follows (i closureSlot : Nat) (f : Function) :
    Run.Follows (.stores ρ last) id (writeSelf i closureSlot f)
      (writeSelf (ρ.closures i) closureSlot (f.rename ρ)) := by
  refine .update (fun s t hst => ?_) fun s s' hs covered => ?_
  · simp only [hst.closures i, f.selfReference_rename]
    cases s.closures[i]? with
    | none => exact .inl ⟨_, rfl, rfl⟩
    | some frame =>
      simp only [Option.map_some, frame.writeFunction_rename ρ]
      cases frame.writeFunction closureSlot f.selfReference with
      | error e => exact .inl ⟨e, rfl, rfl⟩
      | ok written => exact .inr ⟨_, _, rfl, rfl, hst.setClosure hρ i written⟩
  · split at hs
    · cases hs
    · obtain ⟨frame, -, hs⟩ := bind_eq_ok.mp hs
      cases hs
      exact ⟨by simpa [Store.setClosure] using covered.closures, covered.storages⟩

/-- **A knot tied in a renamed activation** is the renamed knot. -/
theorem tieKnot_follows (slot closureSlot : Nat) :
    Run.Follows (.activations ρ last) id (tieKnot slot closureSlot) (tieKnot slot closureSlot) := by
  refine .bind (.readFrame fun frame => frame.readAs_rename ρ slot .function) fun f => ?_
  refine .bind (ensureClosure_follows hρ slot f) fun r => ?_
  exact .onStore (writeSelf_follows hρ r.1 closureSlot r.2)

end

end TypedEval
