import TypedEval.Proofs.Builtin.Protocol
import TypedEval.Proofs.Typing.Admitted

/-!
# Reducible functions

A run that is given a depth **ends** when from some depth on it is one and the same and not exhausted
(`Run.Ends`). Calls go through closures and back from host functions, so nothing about the code of a
function gets smaller along its calls; what gets smaller is its type.

A function is **reducible** in a store when, called in any store that extends it with reducible
arguments, it ends, and its result is reducible where it ends. This is a definition by recursion on
types (`Ty.Reducible`). What is used of it are three facts: it is kept by stores that extend
(`Function.Reducible.mono`), a reducible function ends (`Function.Reducible.ends`), and a function that
ends is reducible (`Function.Reducible.of_ends`).
-/

namespace TypedEval

/-! ## Runs that end -/

namespace Run

variable {σ τ α β : Type}

/-- **A run ends** from a state: from some depth on it is the same, and obeys. -/
def Ends (D : Discipline σ) (m : Nat → Run σ α) (s : σ) (p : α → σ → Prop) : Prop :=
  ∃ depth, (∀ more, depth ≤ more → m more s = m depth s) ∧ (m depth).Obeys D s p

variable {D : Discipline σ} {m : Nat → Run σ α} {s : σ} {p : α → σ → Prop}

/-- What does not depend on the depth ends. -/
theorem Ends.of_obeys {m : Run σ α} (h : m.Obeys D s p) : Ends D (fun _ => m) s p :=
  ⟨0, fun _ _ => rfl, h⟩

theorem Ends.imp {q : α → σ → Prop} (h : Ends D m s p) (k : ∀ a t, p a t → q a t) :
    Ends D m s q := by
  obtain ⟨depth, same, obeys⟩ := h
  exact ⟨depth, same, obeys.imp k⟩

/-- The rest of a run may need more depth than its first part. -/
theorem Ends.bind {f : Nat → α → Run σ β} {q : β → σ → Prop} (h : Ends D m s p)
    (k : ∀ a t, D.holds t → D.leads s t → p a t → Ends D (fun depth => f depth a) t q) :
    Ends D (fun depth => m depth >>= f depth) s q := by
  obtain ⟨first, same, obeys⟩ := h
  rcases hm : m first s with ⟨r, t⟩
  have from_first : ∀ more, first ≤ more → m more s = (r, t) :=
    fun more hle => (same more hle).trans hm
  cases r with
  | error e =>
    obtain ⟨holds, leads, halts⟩ := obeys.halt hm
    refine ⟨first, fun more hle => ?_, .of_halt (bind_halt hm) holds leads halts⟩
    show (m more >>= f more) s = (m first >>= f first) s
    rw [bind_halt (from_first more hle), bind_halt hm]
  | ok a =>
    obtain ⟨holds, leads, value⟩ := obeys.ok hm
    obtain ⟨second, same', obeys'⟩ := k a t holds leads value
    have run : ∀ more, max first second ≤ more → (m more >>= f more) s = f second a t := by
      intro more hle
      rw [bind_ok (from_first more (Nat.le_trans (Nat.le_max_left _ _) hle))]
      exact same' more (Nat.le_trans (Nat.le_max_right _ _) hle)
    have whole := run _ (Nat.le_refl _)
    exact ⟨max first second, fun more hle => (run more hle).trans whole.symm,
      .of_rest whole leads obeys'⟩

/-- A check that passes leaves the rest. -/
theorem Ends.bind_check {x : Except Fault α} {a : α} (h : x = .ok a) {f : Nat → α → Run σ β}
    {q : β → σ → Prop} (rest : Ends D (fun depth => f depth a) s q) :
    Ends D (fun depth => Run.check x >>= f depth) s q := by
  subst h
  exact rest

/-- After a part that needs no depth. -/
theorem Obeys.bind_ends {m : Run σ α} {f : Nat → α → Run σ β} {q : β → σ → Prop}
    (h : m.Obeys D s p)
    (k : ∀ a t, D.holds t → D.leads s t → p a t → Ends D (fun depth => f depth a) t q) :
    Ends D (fun depth => m >>= f depth) s q :=
  (Ends.of_obeys h).bind k

theorem Ends.focus {E : Discipline τ} {get : σ → τ} {set : σ → τ → σ} {m : Nat → Run τ α}
    {r : α → τ → Prop} (h : Ends E m (get s) r)
    (whole : ∀ t, E.holds t → E.leads (get s) t → D.holds (set s t) ∧ D.leads s (set s t))
    (value : ∀ a t, r a t → p a (set s t)) (halts : ∀ e, E.halts e → D.halts e) :
    Ends D (fun depth => Run.focus get set (m depth)) s p := by
  obtain ⟨depth, same, obeys⟩ := h
  refine ⟨depth, fun more hle => ?_, obeys.focus whole value halts⟩
  simp only [Run.focus, same more hle]

end Run

/-- What a run on a store keeps: closures stay as they are, and it does not exhaust its depth. -/
def Discipline.later : Discipline Store where
  holds _ := True
  leads := Store.Extends
  halts h := h ≠ .exhausted
  refl := Store.Extends.refl
  trans := Store.Extends.trans

/-! ## Reducibility -/

section

variable (code : Code)

mutual

/-- **A value is reducible at a type** in a store. At a function type, it is a function that is no
self-reference and ends, wherever it may be called with reducible arguments. -/
def Ty.Reducible : Ty → Store → Value → Prop
  | .bool, _, v => v.ty = .bool
  | .int, _, v => v.ty = .int
  | .float, _, v => v.ty = .float
  | .range element, _, v => v.ty = .range element
  | .array element, s, v =>
    ∃ w, v.expectView = .ok w ∧ w.array.element = element ∧
      w.array.storage.category = element.category ∧
      ∀ x ∈ w.array.storage.references, element.Reducible s x
  | .function params result, s, v =>
    ∃ f, v = .function f ∧ f.target.signature = ⟨params, result⟩ ∧ f.isSelfReference = false ∧
      ∀ t, s.Extends t → ∀ args, Ty.ReducibleAll params t args →
        Run.Ends .later (fun depth => code.call depth f args) t fun v u => result.Reducible u v

/-- The same of values, position by position. -/
def Ty.ReducibleAll : List Ty → Store → List Value → Prop
  | [], _, vs => vs = []
  | ty :: tys, s, vs => ∃ w ws, vs = w :: ws ∧ ty.Reducible s w ∧ Ty.ReducibleAll tys s ws

end

/-- **A function is reducible** in a store. -/
def Function.Reducible (s : Store) (f : Function) : Prop := f.ty.Reducible code s (.function f)

end

variable {code : Code} {s t : Store}

/-- A value is reducible at a type when it is of the type, over the reducible functions. -/
theorem Ty.reducible_iff : (ty : Ty) → (v : Value) →
    (ty.Reducible code s v ↔ v.Of (Function.Reducible code s) ty)
  | .bool, v => by
    refine ⟨fun h => ?_, fun h => ?_⟩
    · obtain ⟨b, rfl⟩ := Value.eq_bool_of_ty (by simpa [Ty.Reducible] using h)
      exact ⟨rfl, .bool b⟩
    · simpa [Ty.Reducible] using h.ty
  | .int, v => by
    refine ⟨fun h => ?_, fun h => ?_⟩
    · obtain ⟨n, rfl⟩ := Value.eq_int_of_ty (by simpa [Ty.Reducible] using h)
      exact ⟨rfl, .int n⟩
    · simpa [Ty.Reducible] using h.ty
  | .float, v => by
    refine ⟨fun h => ?_, fun h => ?_⟩
    · obtain ⟨x, rfl⟩ := Value.eq_float_of_ty (by simpa [Ty.Reducible] using h)
      exact ⟨rfl, .float x⟩
    · simpa [Ty.Reducible] using h.ty
  | .range element, v => by
    refine ⟨fun h => ?_, fun h => ?_⟩
    · have hty : v.ty = .range element := by simpa [Ty.Reducible] using h
      obtain ⟨r, rfl, -⟩ := Value.eq_range_of_ty hty
      exact ⟨hty, .range r⟩
    · simpa [Ty.Reducible] using h.ty
  | .array element, v => by
    unfold Ty.Reducible
    constructor
    · rintro ⟨w, hw, rfl, hcategory, helements⟩
      have hof : w.array.storage.Of (Function.Reducible code s) w.array.element :=
        ⟨hcategory, fun x hx => (Ty.reducible_iff _ x).mp (helements x hx)⟩
      cases v with
      | array a => cases hw; exact hof.array a.id
      | slice x => cases hw; exact hof.slice
      | _ => cases hw
    · intro h
      obtain ⟨w, hw, helement, hof⟩ := h.view
      exact ⟨w, hw, helement, hof.category,
        fun x hx => (Ty.reducible_iff element x).mpr (hof.elements x hx)⟩
  | .function params result, v => by
    constructor
    · intro h
      obtain ⟨f, rfl, hsignature, -⟩ := id h
      have hty : f.ty = .function params result := by
        rw [Function.ty, Target.ty, hsignature]
        rfl
      exact ⟨hty, .function (by rw [Function.Reducible, hty]; exact h)⟩
    · intro h
      have hty := h.ty
      obtain ⟨f, rfl, -, hf⟩ := h.function
      rw [Function.Reducible, show f.ty = .function params result from hty] at hf
      exact hf

theorem Ty.reducibleAll_iff (tys : List Ty) (vs : List Value) :
    Ty.ReducibleAll code tys s vs ↔ List.Forall₂ (Value.Of (Function.Reducible code s)) tys vs := by
  induction tys generalizing vs with
  | nil => simp [Ty.ReducibleAll, List.forall₂_nil_left_iff]
  | cons ty tys ih =>
    simp only [Ty.ReducibleAll, Ty.reducible_iff, ih, List.forall₂_cons_left_iff]
    exact ⟨fun ⟨w, ws, heq, hw, hws⟩ => ⟨w, ws, hw, hws, heq⟩,
      fun ⟨w, ws, hw, hws, heq⟩ => ⟨w, ws, heq, hw, hws⟩⟩

namespace Function

variable {f : Function}

theorem reducible_iff : f.Reducible code s ↔ f.isSelfReference = false ∧
    ∀ t, s.Extends t → ∀ args,
      List.Forall₂ (Value.Of (Function.Reducible code t)) f.target.signature.params args →
      Run.Ends .later (fun depth => code.call depth f args) t
        fun v u => v.Of (Function.Reducible code u) f.target.signature.result := by
  show (Ty.function f.target.signature.params f.target.signature.result).Reducible code s _ ↔ _
  rw [Ty.Reducible]
  simp only [Ty.reducibleAll_iff, Ty.reducible_iff]
  constructor
  · rintro ⟨g, hg, -, hself, hends⟩
    cases hg
    exact ⟨hself, hends⟩
  · rintro ⟨hself, hends⟩
    exact ⟨f, rfl, rfl, hself, hends⟩

/-- A function that ends is reducible. -/
theorem Reducible.of_ends (hself : f.isSelfReference = false)
    (h : ∀ t, s.Extends t → ∀ args,
      List.Forall₂ (Value.Of (Function.Reducible code t)) f.target.signature.params args →
      Run.Ends .later (fun depth => code.call depth f args) t
        fun v u => v.Of (Function.Reducible code u) f.target.signature.result) :
    f.Reducible code s :=
  reducible_iff.mpr ⟨hself, h⟩

theorem Reducible.not_self (hf : f.Reducible code s) : f.isSelfReference = false :=
  (reducible_iff.mp hf).1

/-- **A reducible function ends**, in every store that extends the one it is reducible in. -/
theorem Reducible.ends (hf : f.Reducible code s) (h : s.Extends t) {args : List Value}
    (hargs : List.Forall₂ (Value.Of (Function.Reducible code t)) f.target.signature.params args) :
    Run.Ends .later (fun depth => code.call depth f args) t
      fun v u => v.Of (Function.Reducible code u) f.target.signature.result :=
  (reducible_iff.mp hf).2 t h args hargs

/-- **Reducibility is kept** by stores that extend. -/
theorem Reducible.mono (h : s.Extends t) (hf : f.Reducible code s) : f.Reducible code t :=
  .of_ends hf.not_self fun _ hu _ hargs => hf.ends (h.trans hu) hargs

end Function

theorem Value.Of.mono (h : s.Extends t) {v : Value} {ty : Ty}
    (hv : v.Of (Function.Reducible code s) ty) : v.Of (Function.Reducible code t) ty :=
  ⟨hv.ty, hv.wellTyped.imp fun _ hf => hf.mono h⟩

theorem Storage.Of.mono (h : s.Extends t) {storage : Storage Value} {element : Ty}
    (hs : storage.Of (Function.Reducible code s) element) :
    storage.Of (Function.Reducible code t) element :=
  ⟨hs.category, fun v hv => (hs.elements v hv).mono h⟩

theorem Builder.Of.mono (h : s.Extends t) {b : Builder} {element : Ty}
    (hb : b.Of (Function.Reducible code s) element) : b.Of (Function.Reducible code t) element :=
  ⟨hb.element, hb.storage.mono h⟩

theorem Frame.Of.mono (h : s.Extends t) {frame : Frame}
    (hf : frame.Of (Function.Reducible code s)) : frame.Of (Function.Reducible code t) := by
  intro i slot hslot
  have hcell := hf i slot hslot
  cases hc : slot.cell <;> rw [hc] at hcell
  case reference v => exact ⟨hcell.1, hcell.2.mono h⟩
  all_goals exact hcell

end TypedEval
