import TypedEval.Proofs.Renaming.Evaluation

/-!
# Closed stores

A store is **closed** if it gave out every number that its closures hold. Programs are built in a closed
store, with constants that hold no other numbers either (`Program.BuiltIn`).

That an execution leaves the store closed, and returns a value of it (`Program.BuiltIn.execute`), needs
no walk through evaluation of its own. Take a relabeling that moves just the numbers that the store has
not given out at the end. It leaves alone what the execution starts from and every number that the
execution gives out, so it leaves alone all that the execution ends in; but it would move a number that
was never given out.
-/

namespace TypedEval

/-- **Every number in a value was given out by the store.** -/
inductive Value.Within (s : Store) : Value → Prop where
  | bool (b : Bool) : Within s (.bool b)
  | int (n : Int64) : Within s (.int n)
  | float (x : Float) : Within s (.float x)
  | range (r : Range) : Within s (.range r)
  | function {f : Function} (closure : ∀ id, f.closureId? = some id → id < s.closures.size) :
      Within s (.function f)
  | array {a : ArrayValue} (storage : a.id < s.storages)
      (elements : ∀ v ∈ a.storage.references, Within s v) : Within s (.array a)
  | slice {v : View} (storage : v.array.id < s.storages)
      (elements : ∀ x ∈ v.array.storage.references, Within s x) : Within s (.slice v)

/-- The same of a constant in a tree. -/
def Item.Within (s : Store) : Item → Prop
  | .constant v => v.Within s
  | _ => True

/-- **A store is closed**: it gave out every number that its closures hold. -/
def Store.Closed (s : Store) : Prop :=
  ∀ (id : Nat) (frame : Frame), s.closures[id]? = some frame →
    ∀ (i : Nat) (slot : Slot) (v : Value), frame.slots[i]? = some slot → slot.cell = .reference v →
      v.Within s

/-- **A program is built in a store**, with its code: the constants are values of the store, and the
host functions see no numbers. -/
structure Program.BuiltIn (p : Program) (code : Code) (s : Store) : Prop where
  body : p.body.node.All (Item.Within s)
  functions : code.All (Item.Within s)
  hosts : code.IsOpaque

/-! ## What stays where it is -/

/-- **A relabeling fixes a store**: it leaves alone the numbers that the store gave out. -/
structure Relabeling.Fixes (ρ : Relabeling) (s : Store) : Prop where
  closures : ∀ i < s.closures.size, ρ.closures i = i
  storages : ∀ i < s.storages, ρ.storages i = i

section

variable {ρ : Relabeling} {s t last : Store}

theorem Relabeling.Fixes.upTo (h : ρ.Fixes t) (hst : s.UpTo t) : ρ.Fixes s :=
  ⟨fun i hi => h.closures i (Nat.lt_of_lt_of_le hi hst.closures),
    fun i hi => h.storages i (Nat.lt_of_lt_of_le hi hst.storages)⟩

theorem Value.Within.upTo {v : Value} (hv : v.Within s) (hst : s.UpTo t) : v.Within t := by
  induction hv with
  | bool b => exact .bool b
  | int n => exact .int n
  | float x => exact .float x
  | range r => exact .range r
  | function closure =>
    exact .function fun id hid => Nat.lt_of_lt_of_le (closure id hid) hst.closures
  | array storage _ ih => exact .array (Nat.lt_of_lt_of_le storage hst.storages) ih
  | slice storage _ ih => exact .slice (Nat.lt_of_lt_of_le storage hst.storages) ih

theorem Value.Within.rename_eq {v : Value} (hv : v.Within s) (h : ρ.Fixes s) : v.rename ρ = v := by
  induction hv with
  | bool | int | float | range => simp
  | @function f closure =>
    obtain ⟨target, _ | id | id⟩ := f
    · simp [Function.rename]
    · simp [Function.rename, ClosureRef.rename, h.closures id (closure id rfl)]
    · simp [Function.rename, ClosureRef.rename, h.closures id (closure id rfl)]
  | array storage _ ih =>
    simp [ArrayOf.rename, Storage.rename_eq_self.mpr ih, h.storages _ storage]
  | slice storage _ ih =>
    simp [ViewOf.rename, ArrayOf.rename, Storage.rename_eq_self.mpr ih, h.storages _ storage]

theorem Item.Within.fixedBy {i : Item} (hi : i.Within s) (h : ρ.Fixes s) : i.FixedBy ρ := by
  cases i with
  | constant v => exact Value.Within.rename_eq hi h
  | _ => trivial

/-- **A closed store is its own renaming** in a store that extends it, by a relabeling that fixes it and
leads from its next numbers to those of the other. -/
theorem Store.Closed.renamed (hs : s.Closed) (hst : s.Extends t) (h : ρ.Fixes s)
    (beyond : ∀ i, s.closures.size ≤ i → t.closures.size ≤ ρ.closures i)
    (closures : ∀ k, s.closures.size + k < last.closures.size →
      ρ.closures (s.closures.size + k) = t.closures.size + k)
    (storages : ∀ k, s.storages + k < last.storages →
      ρ.storages (s.storages + k) = t.storages + k) : s.Renamed ρ t last := by
  refine ⟨fun i => ?_, closures, storages⟩
  by_cases hi : i < s.closures.size
  · have here := Array.getElem?_eq_getElem hi
    have fixed := Frame.rename_eq_self.mpr fun j slot v hslot hv =>
      (hs i _ here j slot v hslot hv).rename_eq h
    rw [h.closures i hi, here, hst i _ here, Option.map_some, fixed]
  · have hi := Nat.not_lt.mp hi
    rw [Array.getElem?_eq_none (beyond i hi), Array.getElem?_eq_none hi]
    rfl

/-- **A program built in a store** is executed alike in every store that this one is renamed to, by a
one-to-one relabeling that fixes it. -/
theorem Program.BuiltIn.execute_follows {p : Program} {code : Code} (hp : p.BuiltIn code s)
    (hρ : ρ.OneToOne) (h : ρ.Fixes s) (depth : Nat)
    (hst : s.Renamed ρ t (p.execute code depth s).2) :
    (p.execute code depth t).1 = (p.execute code depth s).1.map (Value.rename ρ) ∧
      (p.execute code depth s).2.Renamed ρ (p.execute code depth t).2
        (p.execute code depth s).2 :=
  (Program.execute_follows hρ (fun b hb => (hp.functions b hb).imp fun _ hi => hi.fixedBy h) hp.hosts p
    (hp.body.imp fun _ hi => hi.fixedBy h) depth s ⟨Nat.le_refl _, Nat.le_refl _⟩).2 t hst

end

/-! ## Numbers that were never given out -/

/-- Moves the numbers from `n` on up to those from `m` on. -/
def moveUp (n m i : Nat) : Nat := if i < n then i else i + (m - n)

section

variable {n m i j : Nat}

theorem moveUp_of_lt (h : i < n) : moveUp n m i = i := if_pos h

theorem moveUp_of_le (h : n ≤ i) : moveUp n m i = i + (m - n) := if_neg (Nat.not_lt.mpr h)

theorem le_moveUp (n m i : Nat) : i ≤ moveUp n m i := by
  unfold moveUp
  split <;> omega

theorem moveUp_injective (h : moveUp n m i = moveUp n m j) : i = j := by
  unfold moveUp at h
  split at h <;> split at h <;> omega

end

/-- **The relabeling that moves the numbers that a store has not given out**, all up by one. -/
def Relabeling.beyond (s : Store) : Relabeling :=
  ⟨moveUp s.closures.size (s.closures.size + 1), moveUp s.storages (s.storages + 1)⟩

section

variable {s : Store}

theorem Relabeling.beyond_oneToOne (s : Store) : (beyond s).OneToOne :=
  ⟨moveUp_injective, moveUp_injective⟩

theorem Relabeling.beyond_fixes (s : Store) : (beyond s).Fixes s :=
  ⟨fun _ => moveUp_of_lt, fun _ => moveUp_of_lt⟩

theorem lt_of_moveUp_eq {n i : Nat} (h : moveUp n (n + 1) i = i) : i < n := by
  unfold moveUp at h
  split at h <;> omega

/-- What that relabeling leaves alone holds only numbers that the store gave out. -/
theorem Value.within_of_rename_eq {v : Value} (h : v.rename (.beyond s) = v) : v.Within s := by
  induction v using deep_induction with
  | bool b => exact .bool b
  | int n => exact .int n
  | float x => exact .float x
  | range r => exact .range r
  | function f =>
    have same : f.rename (.beyond s) = f := by simpa using h
    refine .function fun id hid => lt_of_moveUp_eq ?_
    have moved := f.closureId?_rename (.beyond s)
    rw [same, hid] at moved
    exact (Option.some.inj moved).symm
  | array a ih =>
    rw [rename_array] at h
    have same := Value.array.inj h
    have elements := Storage.rename_eq_self.mp (congrArg ArrayOf.storage same)
    exact .array (lt_of_moveUp_eq (congrArg ArrayOf.id same)) fun v hv => ih v hv (elements v hv)
  | slice w ih =>
    rw [rename_slice] at h
    have same := congrArg ViewOf.array (Value.slice.inj h)
    have elements := Storage.rename_eq_self.mp (congrArg ArrayOf.storage same)
    exact .slice (lt_of_moveUp_eq (congrArg ArrayOf.id same)) fun v hv => ih v hv (elements v hv)

/-- **An execution leaves the store closed, and returns a value of it.** -/
theorem Program.BuiltIn.execute {p : Program} {code : Code} (hp : p.BuiltIn code s) (hs : s.Closed)
    (depth : Nat) :
    (p.execute code depth s).2.Closed ∧
      ∀ v, (p.execute code depth s).1 = .ok v → v.Within (p.execute code depth s).2 := by
  let last := (p.execute code depth s).2
  have fixes : (Relabeling.beyond last).Fixes last := Relabeling.beyond_fixes last
  have fixesFirst : (Relabeling.beyond last).Fixes s := fixes.upTo (p.upTo_execute code depth s)
  -- No number that the execution gives out is moved, so the first store is renamed to itself.
  have same : s.Renamed (.beyond last) s last :=
    hs.renamed (.refl s) fixesFirst (fun i hi => Nat.le_trans hi (le_moveUp _ _ i))
      (fun k hk => fixes.closures _ hk) (fun k hk => fixes.storages _ hk)
  obtain ⟨result, after⟩ := hp.execute_follows (Relabeling.beyond_oneToOne last) fixesFirst depth same
  constructor
  · intro id frame hframe i slot v hslot hv
    have kept := after.closures id
    obtain ⟨hid, -⟩ := Array.getElem?_eq_some_iff.mp hframe
    rw [fixes.closures id hid, hframe] at kept
    have fixed : frame.rename (.beyond last) = frame := (Option.some.inj kept).symm
    exact Value.within_of_rename_eq (Frame.rename_eq_self.mp fixed i slot v hslot hv)
  · intro v hv
    rw [hv] at result
    exact Value.within_of_rename_eq (Except.ok.inj result).symm

end

/-- **The stores that executions come to**, from the empty one. In between, a host makes storages for
the constants of the next program. -/
inductive Store.Reached : Store → Prop where
  | empty : Reached .empty
  | newStorage {s : Store} : Reached s → Reached { s with storages := s.storages + 1 }
  | execute {s : Store} {p : Program} {code : Code} (depth : Nat) :
      Reached s → p.BuiltIn code s → Reached (p.execute code depth s).2

/-- **All these stores are closed.** -/
theorem Store.Reached.closed {s : Store} (h : s.Reached) : s.Closed := by
  induction h with
  | empty => exact fun id frame hframe => by simp [Store.empty] at hframe
  | newStorage _ ih =>
    exact fun id frame hframe i slot v hslot hv =>
      (ih id frame hframe i slot v hslot hv).upTo ⟨Nat.le_refl _, Nat.le_succ _⟩
  | execute depth _ hp ih => exact (hp.execute ih depth).1

end TypedEval
