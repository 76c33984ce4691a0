import TypedEval.Builtin.Sequence
import TypedEval.Proofs.Value.Sequences

/-!
# Where the values of a sequence come from

An operation on sequences makes no references of its own: an element that is read is a boxed cell of
the storage or a primitive, and the boxed cells of a new storage are those that were pushed. So a
property of values that primitives have passes from the cells of a sequence to its elements and from
elements to the arrays that are built of them.
-/

namespace TypedEval

variable {p : Value → Prop} (hp : ∀ v : Value, v.family.isPrimitive = true → p v)

/-- All boxed cells have a property. -/
def Storage.Each (p : Value → Prop) (s : Storage Value) : Prop := ∀ v ∈ s.references, p v

theorem Storage.each_empty (category : Category) :
    (Storage.empty category : Storage Value).Each p := by
  intro v hv
  cases category <;> cases hv

include hp

theorem Storage.Each.read {s : Storage Value} (hs : s.Each p) {position : UInt64} {v : Value}
    (h : s.read position = .ok v) : p v := by
  unfold Storage.read at h
  split at h
  · split at h <;> cases h; exact hp _ rfl
  · split at h <;> cases h; exact hp _ rfl
  · split at h <;> cases h; exact hp _ rfl
  · split at h
    · next items _ hcell =>
      cases h
      exact hs v (Array.mem_toList_iff.mpr (Array.mem_of_getElem? hcell))
    · cases h

/-! ## Views -/

namespace ViewOf

variable {v : View}

theorem each_get (hv : v.array.storage.Each p) {i : Int64} {x : Value} (h : v.get i = .ok x) :
    p x := by
  obtain ⟨position, -, h⟩ := bind_eq_ok.mp h
  exact hv.read hp h

theorem each_getAs (hv : v.array.storage.Each p) {family : Family} {i : Int64}
    {x : Carrier family} (h : v.getAs family i = .ok x) : p (family.box x) := by
  cases family with
  | bool | int | float => exact hp _ rfl
  | function =>
    obtain ⟨w, hw, hf⟩ := bind_eq_ok.mp h
    cases w <;> cases lift_defect_eq_ok.mp hf
    exact each_get hp hv hw
  | reference => exact each_get hp hv h

omit hp in
theorem array_of_slice {w : View} {r : IntRange} (h : v.slice r = .ok w) : w.array = v.array := by
  have shown := v.slice_gives r
  rw [h] at shown
  exact shown

end ViewOf

/-! ## Builders -/

namespace Builder

omit hp

variable {b c : Builder}

theorem each_push (hb : b.storage.Each p) {v : Value} (hv : p v) (h : b.push v = .ok c) :
    c.storage.Each p := by
  unfold push at h
  split at h
  · unfold store at h
    split at h
    · obtain ⟨_, _, h⟩ := bind_eq_ok.mp h
      cases h
      exact fun _ hw => (nomatch hw)
    · obtain ⟨_, _, h⟩ := bind_eq_ok.mp h
      cases h
      exact fun _ hw => (nomatch hw)
    · obtain ⟨_, _, h⟩ := bind_eq_ok.mp h
      cases h
      exact fun _ hw => (nomatch hw)
    · next items hitems =>
      cases h
      intro w hw
      simp only [Storage.references, Array.toList_push, List.mem_append, List.mem_singleton] at hw
      obtain hold | rfl := hw
      · exact hb w (by rw [hitems]; exact hold)
      · exact hv
  · cases h

theorem each_pushAs (hb : b.storage.Each p) {family : Family} {x : Carrier family}
    (hx : p (family.box x)) (h : b.pushAs family x = .ok c) : c.storage.Each p := by
  cases family with
  | bool =>
    simp only [pushAs, pushBool] at h
    split at h <;> cases h
    exact fun _ hw => (nomatch hw)
  | int =>
    simp only [pushAs, pushInt] at h
    split at h <;> cases h
    exact fun _ hw => (nomatch hw)
  | float =>
    simp only [pushAs, pushFloat] at h
    split at h <;> cases h
    exact fun _ hw => (nomatch hw)
  | function => exact each_push hb hx h
  | reference => exact each_push hb hx h

end Builder

/-! ## Enumerations -/

namespace Elements

/-- All boxed cells that an enumeration goes through have a property. -/
def Each (p : Value → Prop) : Elements → Prop
  | .cells storage _ _ _ => storage.Each p
  | _ => True

variable {it rest : Elements}

omit hp in
theorem Each.imp {q : Value → Prop} (hit : it.Each p) (h : ∀ v, p v → q v) : it.Each q := by
  cases it with
  | cells storage next step remaining => exact fun v hv => h v (hit v hv)
  | _ => trivial

theorem Each.next (hit : it.Each p) {v : Except Fault Value} (h : it.next? = some (v, rest)) :
    (∀ x, v = .ok x → p x) ∧ rest.Each p := by
  cases it with
  | cells storage next step remaining =>
    cases remaining with
    | zero => cases h
    | succ n => cases h; exact ⟨fun x hx => Storage.Each.read hp hit hx, hit⟩
  | ints it =>
    obtain ⟨⟨n, r⟩, _, heq⟩ := Option.map_eq_some_iff.mp h
    cases heq
    exact ⟨fun x hx => by cases hx; exact hp _ rfl, trivial⟩
  | floats it =>
    obtain ⟨⟨y, r⟩, _, heq⟩ := Option.map_eq_some_iff.mp h
    cases heq
    exact ⟨fun x hx => by cases hx; exact hp _ rfl, trivial⟩

theorem Each.fill (hit : it.Each p) {b c : Builder} (hb : b.storage.Each p) {limit : Nat}
    (h : it.fill limit b = .ok c) : c.storage.Each p := by
  induction limit generalizing it b with
  | zero => cases h; exact hb
  | succ limit ih =>
    unfold Elements.fill at h
    split at h
    · cases h; exact hb
    · next v rest hnext =>
      obtain ⟨hv, hrest⟩ := hit.next hp hnext
      obtain ⟨x, hx, h⟩ := bind_eq_ok.mp h
      obtain ⟨d, hd, h⟩ := bind_eq_ok.mp h
      exact ih hrest (Builder.each_push hb (hv x hx) hd) h

end Elements

theorem ViewOf.each_copy {v : View} (hv : v.array.storage.Each p) {id : Nat} {a : ArrayValue}
    (h : v.copy id = .ok a) : a.storage.Each p := by
  obtain ⟨b, hb, h⟩ := bind_eq_ok.mp h
  cases h
  have hv : v.elements.Each p := hv
  exact hv.fill hp (Storage.each_empty _) hb

end TypedEval
