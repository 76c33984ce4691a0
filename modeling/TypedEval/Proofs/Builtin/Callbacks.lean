import TypedEval.Proofs.Boxed.Calls
import TypedEval.Proofs.Value.Packed

/-!
# Builtins that call back

`map`, `filter`, `fold` and `reduce` go through a sequence element by element, and collect in storage
of the element type's category. Over every way of calling they are the functions of the same names on
the list of elements (`Value.members`), in the monad of runs: `mapM`, `filterM` and `foldlM` call the
callback for each element in order, in the store that the calls before it left, and stop with the
first call that halts.

Each loop is followed by an induction on its limit, with what was collected so far as a parameter;
`Storage.pack` is the storage after any number of elements.
-/

namespace TypedEval

/-! ## Lists in the monad of runs -/

section

variable {m : Type → Type} [Monad m] [LawfulMonad m] {α : Type}

theorem filterAuxM_eq (p : α → m Bool) (xs acc : List α) :
    xs.filterAuxM p acc = xs.filterAuxM p [] >>= fun ys => pure (ys ++ acc) := by
  induction xs generalizing acc with
  | nil => simp [List.filterAuxM]
  | cons x xs ih =>
    simp only [List.filterAuxM, bind_assoc]
    congr
    funext b
    rw [ih, ih (cond b [x] [])]
    cases b <;> simp

theorem filterM_nil (p : α → m Bool) : ([] : List α).filterM p = pure [] := by
  simp [List.filterM, List.filterAuxM]

theorem filterM_cons (p : α → m Bool) (x : α) (xs : List α) :
    (x :: xs).filterM p = (do
      let keep ← p x
      let ys ← xs.filterM p
      pure (if keep then x :: ys else ys)) := by
  simp only [List.filterM, List.filterAuxM, bind_assoc]
  congr
  funext b
  rw [filterAuxM_eq]
  cases b <;> simp

theorem filterM_append (p : α → m Bool) (xs ys : List α) :
    (xs ++ ys).filterM p = (do
      let us ← xs.filterM p
      let vs ← ys.filterM p
      pure (us ++ vs)) := by
  induction xs with
  | nil => simp [filterM_nil]
  | cons x xs ih =>
    simp only [List.cons_append, filterM_cons, ih, bind_assoc, pure_bind]
    congr
    funext keep
    cases keep <;> simp

end

/-- A halt ends a map, with the state that the call left. -/
theorem Run.mapM_halt {σ α β : Type} {g : α → Run σ β} {xs rest : List α} {x : α} {ys : List β}
    {s t u : σ} {h : Halt} (before : xs.mapM g s = (.ok ys, t)) (at_x : g x t = (.error h, u)) :
    (xs ++ x :: rest).mapM g s = (.error h, u) := by
  rw [List.mapM_append, Run.bind_ok before, List.mapM_cons]
  exact Run.bind_halt (Run.bind_halt at_x)

theorem Run.foldlM_halt {σ α β : Type} {g : β → α → Run σ β} {xs rest : List α} {x : α} {a b : β}
    {s t u : σ} {h : Halt} (before : xs.foldlM g a s = (.ok b, t)) (at_x : g b x t = (.error h, u)) :
    (xs ++ x :: rest).foldlM g a s = (.error h, u) := by
  rw [List.foldlM_append, Run.bind_ok before, List.foldlM_cons]
  exact Run.bind_halt at_x

theorem Run.filterM_halt {σ α : Type} {p : α → Run σ Bool} {xs rest ys : List α} {x : α}
    {s t u : σ} {h : Halt} (before : xs.filterM p s = (.ok ys, t)) (at_x : p x t = (.error h, u)) :
    (xs ++ x :: rest).filterM p s = (.error h, u) := by
  rw [filterM_append, Run.bind_ok before, filterM_cons]
  exact Run.bind_halt (Run.bind_halt at_x)

theorem Run.length_of_mapM {σ α β : Type} {g : α → Run σ β} {xs : List α} {ys : List β} {s t : σ}
    (h : xs.mapM g s = (.ok ys, t)) : ys.length = xs.length := by
  induction xs generalizing ys s with
  | nil => rw [List.mapM_nil] at h; cases h; rfl
  | cons x xs ih =>
    rw [List.mapM_cons] at h
    obtain ⟨y, u, -, h⟩ := Run.bind_ok_iff.mp h
    obtain ⟨zs, v, hzs, h⟩ := Run.bind_ok_iff.mp h
    cases h
    rw [List.length_cons, List.length_cons, ih hzs]

theorem Run.sublist_of_filterM {σ α : Type} {p : α → Run σ Bool} {xs ys : List α} {s t : σ}
    (h : xs.filterM p s = (.ok ys, t)) : ys.Sublist xs := by
  induction xs generalizing ys s with
  | nil => cases h; exact .slnil
  | cons x xs ih =>
    rw [filterM_cons] at h
    obtain ⟨keep, u, -, h⟩ := Run.bind_ok_iff.mp h
    obtain ⟨zs, v, hzs, h⟩ := Run.bind_ok_iff.mp h
    cases h
    cases keep with
    | false => exact (ih hzs).cons x
    | true => exact (ih hzs).cons_cons x

/-! ## The loops -/

namespace Builtin

variable (call : Caller) (f : Function)

/-- A call with an element, whose result has to be of the family of the callback's result type. -/
def callChecking (ty : Ty) (x : Value) : Run Store Value := do
  let r ← call f [x]
  Run.check (ty.receive r)

/-- The values of a run in an array of fresh storage. -/
def inArray (element : Ty) (m : Run Store (List Value)) : Run Store Value := do
  let vs ← m
  let id ← Store.newStorage
  return .array (.packed id element vs)

/-- Whether a predicate holds of an element. -/
def test (x : Value) : Run Store Bool := do
  let r ← call f [x]
  Run.check r.expectBool

theorem run_callFunction_bind {β : Type} (args : List Value) (k : Value → Script β) :
    (Script.callFunction f args >>= k).run call = call f args >>= fun r => (k r).run call := rfl

/-- One step of a loop over elements that can be read. -/
theorem take_succ_cases {limit : Nat} {it : Elements} {xs : List Value}
    (h : it.take (limit + 1) = xs.map .ok) :
    (it.next? = none ∧ xs = []) ∨
      ∃ x rest ys, it.next? = some (.ok x, rest) ∧ xs = x :: ys ∧ rest.take limit = ys.map .ok := by
  simp only [Elements.take] at h
  split at h
  · next hnext => exact .inl ⟨hnext, by simpa using h.symm⟩
  · next v rest hnext =>
    cases xs with
    | nil => cases h
    | cons x ys =>
      injection h with hv hys
      exact .inr ⟨x, rest, ys, by rw [hnext, hv], rfl, hys⟩

theorem mapInto_run {ty : Ty} (limit : Nat) {it : Elements} {xs : List Value} (vs : List Value)
    (h : it.take limit = xs.map .ok) :
    (mapInto f limit it (.packed ty vs)).run call = (do
      let rs ← xs.mapM (callChecking call f ty)
      pure (.packed ty (vs ++ rs))) := by
  induction limit generalizing it xs vs with
  | zero =>
    cases xs with
    | nil => rw [List.mapM_nil, pure_bind, List.append_nil]; rfl
    | cons x xs => cases h
  | succ limit ih =>
    obtain ⟨hnext, rfl⟩ | ⟨x, rest, ys, hnext, rfl, hys⟩ := take_succ_cases h
    · rw [List.mapM_nil, pure_bind, List.append_nil]
      simp only [mapInto, hnext]
      rfl
    · simp only [mapInto, hnext]
      show (Script.callFunction f [x] >>= _).run call = _
      rw [run_callFunction_bind, List.mapM_cons, callChecking]
      simp only [bind_assoc, pure_bind]
      congr
      funext r
      rw [Builder.push_packed]
      cases ty.receive r with
      | error e => rfl
      | ok w =>
        show (mapInto f limit rest (.packed ty (vs ++ [w]))).run call = _
        rw [ih (vs ++ [w]) hys]
        simp only [List.append_assoc, List.singleton_append]
        rfl

theorem filterInto_run {ty : Ty} (limit : Nat) {it : Elements} {xs : List Value} (vs : List Value)
    (h : it.take limit = xs.map .ok) (hxs : ∀ x ∈ xs, x.family = ty.family) :
    (filterInto f limit it (.packed ty vs)).run call = (do
      let ys ← xs.filterM (test call f)
      pure (.packed ty (vs ++ ys))) := by
  induction limit generalizing it xs vs with
  | zero =>
    cases xs with
    | nil => rw [filterM_nil, pure_bind, List.append_nil]; rfl
    | cons x xs => cases h
  | succ limit ih =>
    obtain ⟨hnext, rfl⟩ | ⟨x, rest, ys, hnext, rfl, hys⟩ := take_succ_cases h
    · rw [filterM_nil, pure_bind, List.append_nil]
      simp only [filterInto, hnext]
      rfl
    · obtain ⟨hx, hxs⟩ := List.forall_mem_cons.mp hxs
      simp only [filterInto, hnext]
      show (Script.callFunction f [x] >>= _).run call = _
      rw [run_callFunction_bind, filterM_cons, test]
      simp only [bind_assoc, pure_bind]
      congr
      funext r
      cases hr : r.expectBool with
      | error e => rfl
      | ok keep =>
        cases keep with
        | false =>
          show (filterInto f limit rest (.packed ty vs)).run call = _
          rw [ih vs hys hxs]
          rfl
        | true =>
          show ((liftM ((Builder.packed ty vs).push x) : Script Builder) >>= _).run call = _
          rw [Builder.push_packed, Ty.receive_of_family hx]
          show (filterInto f limit rest (.packed ty (vs ++ [x]))).run call = _
          rw [ih (vs ++ [x]) hys hxs]
          simp only [List.append_assoc, List.singleton_append]
          rfl

theorem foldOver_run (limit : Nat) {it : Elements} {xs : List Value} (acc : Value)
    (h : it.take limit = xs.map .ok) :
    (foldOver f limit it acc).run call = xs.foldlM (fun acc x => call f [acc, x]) acc := by
  induction limit generalizing it xs acc with
  | zero =>
    cases xs with
    | nil => rfl
    | cons x xs => cases h
  | succ limit ih =>
    obtain ⟨hnext, rfl⟩ | ⟨x, rest, ys, hnext, rfl, hys⟩ := take_succ_cases h
    · simp only [foldOver, hnext]
      rfl
    · simp only [foldOver, hnext]
      show (Script.callFunction f [acc, x] >>= _).run call = _
      rw [run_callFunction_bind, List.foldlM_cons]
      congr
      funext r
      exact ih r hys

/-! ## The builtins -/

variable {v initial : Value} {it : Elements} {xs : List Value}

/-- A script that starts with a result at hand goes on with it. -/
theorem run_lift {α : Type} {x : Except Fault α} {a : α} (h : x = .ok a) (k : α → Script Value) :
    ((liftM x : Script α) >>= k).run call = (k a).run call := by
  rw [h]
  rfl

variable {s : Store} {closure : Option (Nat × Frame)}

/-- A callback whose closure is not there is reported before anything else. -/
theorem run_of_dangling [Allocator] (v initial : Value) {d : Defect} (h : f.closureIn s = .error d) :
    (map [v, .function f]).run call s = (.error (.fault (.defect d) []), s) ∧
      (filter [v, .function f]).run call s = (.error (.fault (.defect d) []), s) ∧
      (fold [v, initial, .function f]).run call s = (.error (.fault (.defect d) []), s) ∧
      (reduce [v, .function f]).run call s = (.error (.fault (.defect d) []), s) :=
  ⟨Script.run_resolve_error call h, Script.run_resolve_error call h,
    Script.run_resolve_error call h, Script.run_resolve_error call h⟩

/-- A sequence that cannot be enumerated is reported before anything is called. -/
theorem run_of_no_elements [Allocator] (initial : Value) (hclosure : f.closureIn s = .ok closure)
    {e : Fault} (h : v.elements = .error e) :
    (map [v, .function f]).run call s = (.error (.fault e []), s) ∧
      (fold [v, initial, .function f]).run call s = (.error (.fault e []), s) ∧
      (reduce [v, .function f]).run call s = (.error (.fault e []), s) ∧
      ∀ element, v.elementType = .ok element →
        (filter [v, .function f]).run call s = (.error (.fault e []), s) := by
  have failed {α : Type} (k : Elements → Script α) :
      ((liftM v.elements : Script Elements) >>= k).run call s = (.error (.fault e []), s) := by
    rw [h]
    rfl
  have fixed {m next : Script Value} (hm : m = .resolve f next) :
      m.run call s = next.run call s := hm ▸ Script.run_resolve_ok call hclosure
  refine ⟨(fixed rfl).trans (failed _), (fixed rfl).trans (failed _), (fixed rfl).trans (failed _),
    fun element helement => (fixed rfl).trans ?_⟩
  show ((liftM v.elementType : Script Ty) >>= _).run call s = _
  rw [helement]
  exact failed _

theorem map_run [Allocator] (hclosure : f.closureIn s = .ok closure) (hit : v.elements = .ok it)
    (hxs : it.toList = xs.map .ok) :
    (map [v, .function f]).run call s =
      (match reserve f.target.signature.result.category xs.length with
      | .error refusal => Run.fault (.raised (.host "map" refusal.message))
      | .ok () =>
        inArray f.target.signature.result
          (xs.mapM (callChecking call f f.target.signature.result))) s := by
  have hlength : it.remaining = xs.length := by
    rw [← Elements.length_toList, hxs, List.length_map]
  have htake : it.take xs.length = xs.map .ok := by
    rw [← hlength]
    exact hxs
  refine (Script.run_resolve_ok call hclosure).trans ?_
  show ((liftM v.elements : Script Elements) >>= _).run call s = _
  rw [run_lift call hit]
  unfold Builder.withCapacity
  rw [hlength]
  cases reserve f.target.signature.result.category xs.length with
  | error refusal => rfl
  | ok _ =>
    show (mapInto f xs.length it (.new _) >>= Script.finish).run call s = _
    rw [Script.run_bind, Builder.new_eq_packed, mapInto_run call f _ _ htake, bind_assoc]
    simp only [pure_bind, List.nil_append]
    rfl

theorem filter_run (hclosure : f.closureIn s = .ok closure) {element : Ty}
    (helement : v.elementType = .ok element) (hit : v.elements = .ok it)
    (hxs : it.toList = xs.map .ok) (hfamily : ∀ x ∈ xs, x.family = element.family) :
    (filter [v, .function f]).run call s = inArray element (xs.filterM (test call f)) s := by
  refine (Script.run_resolve_ok call hclosure).trans ?_
  show ((liftM v.elementType : Script Ty) >>= fun element => (liftM v.elements : Script Elements) >>=
    fun it => filterInto f it.remaining it (.new element) >>= Script.finish).run call s = _
  rw [helement]
  show ((liftM v.elements : Script Elements) >>= _).run call s = _
  rw [run_lift call hit, Script.run_bind, Builder.new_eq_packed,
    filterInto_run call f _ _ hxs hfamily, bind_assoc]
  simp only [pure_bind, List.nil_append]
  rfl

theorem fold_run (hclosure : f.closureIn s = .ok closure) (hit : v.elements = .ok it)
    (hxs : it.toList = xs.map .ok) :
    (fold [v, initial, .function f]).run call s =
      xs.foldlM (fun acc x => call f [acc, x]) initial s := by
  refine (Script.run_resolve_ok call hclosure).trans ?_
  show ((liftM v.elements : Script Elements) >>= fun it =>
    foldOver f it.remaining it initial).run call s = _
  rw [run_lift call hit, foldOver_run call f _ initial hxs]

theorem reduce_run (hclosure : f.closureIn s = .ok closure) (hit : v.elements = .ok it)
    (hxs : it.toList = xs.map .ok) :
    (xs = [] → (reduce [v, .function f]).run call s
        = (.error (.fault (.raised (.emptyReduce "reduce")) []), s)) ∧
      ∀ x ys, xs = x :: ys → (reduce [v, .function f]).run call s =
        ys.foldlM (fun acc x => call f [acc, x]) x s := by
  have fixed : (reduce [v, .function f]).run call s
      = ((liftM v.elements : Script Elements) >>= _).run call s :=
    Script.run_resolve_ok call hclosure
  rw [fixed, run_lift call hit]
  obtain ⟨hzero, hnext⟩ | ⟨first, rest, hnext, hremaining⟩ := it.next?_cases
  · have hnil : xs = [] := by
      rw [Elements.toList, hzero] at hxs
      exact List.map_eq_nil_iff.mp hxs.symm
    rw [hnext]
    exact ⟨fun _ => rfl, fun x ys hcons => by rw [hnil] at hcons; cases hcons⟩
  · rw [Elements.toList, hremaining] at hxs
    obtain ⟨hnone, -⟩ | ⟨x, rest', ys, hsome, rfl, hys⟩ := take_succ_cases hxs
    · rw [hnext] at hnone
      cases hnone
    · rw [hnext] at hsome
      cases hsome
      rw [hnext]
      refine ⟨fun hnil => (nomatch hnil), ?_⟩
      rintro y zs hcons
      cases hcons
      exact congrFun (foldOver_run call f _ x hys) s

/-! ## Callbacks of their type -/

variable {call f}

/-- **A callback is true to its type**, from stores with a property on: a call with one of the elements
returns a value of the declared result type, and leaves such a store behind. -/
def TrueTo (call : Caller) (holds : Store → Prop) (f : Function) (xs : List Value) : Prop :=
  ∀ x ∈ xs, ∀ s r t, holds s → call f [x] s = (.ok r, t) →
    r.ty = f.target.signature.result ∧ holds t

/-- What a callback that is true to its type returns needs no check. -/
theorem TrueTo.mapM_eq {holds : Store → Prop} (hf : TrueTo call holds f xs) {s : Store}
    (hs : holds s) :
    xs.mapM (callChecking call f f.target.signature.result) s = xs.mapM (fun x => call f [x]) s := by
  induction xs generalizing s with
  | nil => rfl
  | cons x xs ih =>
    obtain ⟨hx, hxs⟩ := List.forall_mem_cons.mp hf
    rw [List.mapM_cons, List.mapM_cons]
    rcases hcall : call f [x] s with ⟨r, t⟩
    cases r with
    | error e =>
      have checked : callChecking call f f.target.signature.result x s = (.error e, t) :=
        Run.bind_halt hcall
      rw [Run.bind_halt checked, Run.bind_halt hcall]
    | ok r =>
      obtain ⟨hty, ht⟩ := hx s r t hs hcall
      have hfamily : r.family = f.target.signature.result.family := by
        rw [← hty, Value.family_ty]
      have checked : callChecking call f f.target.signature.result x s = (.ok r, t) := by
        unfold callChecking
        rw [Run.bind_ok hcall, Ty.receive_of_family hfamily]
        rfl
      rw [Run.bind_ok checked, Run.bind_ok hcall]
      show Run.bind _ _ t = Run.bind _ _ t
      simp only [Run.bind, ih hxs ht]

/-- The results of a map over such a callback are of the declared result type. -/
theorem TrueTo.ty_of_mapM {holds : Store → Prop} (hf : TrueTo call holds f xs) {s t : Store}
    (hs : holds s) {rs : List Value} (h : xs.mapM (fun x => call f [x]) s = (.ok rs, t)) :
    ∀ r ∈ rs, r.ty = f.target.signature.result := by
  induction xs generalizing s rs with
  | nil => rw [List.mapM_nil] at h; cases h; exact fun _ hr => (nomatch hr)
  | cons x xs ih =>
    obtain ⟨hx, hxs⟩ := List.forall_mem_cons.mp hf
    rw [List.mapM_cons] at h
    obtain ⟨r, u, hr, h⟩ := Run.bind_ok_iff.mp h
    obtain ⟨ys, w, hys, h⟩ := Run.bind_ok_iff.mp h
    cases h
    obtain ⟨hty, hu⟩ := hx s r u hs hr
    exact List.forall_mem_cons.mpr ⟨hty, ih hxs hu hys⟩

/-! ## The laws -/

/-- **A run is the map of a callback** from a store. -/
structure MapsFrom [Allocator] (call : Caller) (f : Function) (xs : List Value) (m : Run Store Value)
    (s : Store) : Prop where
  /-- Storage that cannot be reserved is reported before the first call. -/
  refused : ∀ refusal, reserve f.target.signature.result.category xs.length = .error refusal →
    m s = (.error (.fault (.raised (.host "map" refusal.message)) []), s)
  /-- Otherwise the callback is mapped, and its results are put into a fresh array. -/
  mapped : reserve f.target.signature.result.category xs.length = .ok () →
    m s = inArray f.target.signature.result (xs.mapM fun x => call f [x]) s
  /-- The array has the callback's result type as element type, and one result for each element. -/
  array : ∀ w t, m s = (.ok w, t) → ∃ a rs u, w = Value.array a ∧
    a.element = f.target.signature.result ∧ (xs.mapM fun x => call f [x]) s = (.ok rs, u) ∧
    a.storage.values = rs ∧ rs.length = xs.length
  /-- The first call that halts ends the run. -/
  stops : reserve f.target.signature.result.category xs.length = .ok () →
    ∀ done x rest rs t h u, xs = done ++ x :: rest →
      (done.mapM fun x => call f [x]) s = (.ok rs, t) → call f [x] t = (.error h, u) →
        m s = (.error h, u)

/-- **A run is the filter of a predicate** from a store. -/
structure FiltersFrom (call : Caller) (f : Function) (element : Ty) (xs : List Value)
    (m : Run Store Value) (s : Store) : Prop where
  filtered : m s = inArray element (xs.filterM (test call f)) s
  /-- The array has the element type of the sequence, and some of its elements in their order. -/
  array : ∀ w t, m s = (.ok w, t) → ∃ a, w = Value.array a ∧ a.element = element ∧
    a.storage.values.Sublist xs
  /-- The first call that halts ends the run. -/
  stops : ∀ done x rest ys t h u, xs = done ++ x :: rest →
    done.filterM (test call f) s = (.ok ys, t) → call f [x] t = (.error h, u) → m s = (.error h, u)

/-- **A run is the left fold of a callback** from a store. -/
structure FoldsFrom (call : Caller) (f : Function) (initial : Value) (xs : List Value)
    (m : Run Store Value) (s : Store) : Prop where
  folded : m s = xs.foldlM (fun acc x => call f [acc, x]) initial s
  /-- The first call that halts ends the run. -/
  stops : ∀ done x rest acc t h u, xs = done ++ x :: rest →
    done.foldlM (fun acc x => call f [acc, x]) initial s = (.ok acc, t) →
      call f [acc, x] t = (.error h, u) → m s = (.error h, u)

theorem FoldsFrom.of_eq {m : Run Store Value} {s : Store}
    (h : m s = xs.foldlM (fun acc x => call f [acc, x]) initial s) :
    FoldsFrom call f initial xs m s := by
  refine ⟨h, ?_⟩
  rintro done x rest acc t e u rfl hdone hx
  rw [h]
  exact Run.foldlM_halt hdone hx

theorem map_mapsFrom [Allocator] {holds : Store → Prop} (hf : TrueTo call holds f xs) (hs : holds s)
    (hclosure : f.closureIn s = .ok closure) (hit : v.elements = .ok it)
    (hxs : it.toList = xs.map .ok) :
    MapsFrom call f xs ((map [v, .function f]).run call) s := by
  have run := map_run call f hclosure hit hxs
  have mapped (hreserve : reserve f.target.signature.result.category xs.length = .ok ()) :
      (map [v, .function f]).run call s =
        inArray f.target.signature.result (xs.mapM fun x => call f [x]) s := by
    rw [run, hreserve]
    show Run.bind _ _ s = Run.bind _ _ s
    simp only [Run.bind, hf.mapM_eq hs]
  refine ⟨fun refusal hrefusal => by rw [run, hrefusal]; rfl, mapped, ?_, ?_⟩
  · intro w t hw
    cases hreserve : reserve f.target.signature.result.category xs.length with
    | error refusal => rw [run, hreserve] at hw; cases hw
    | ok _ =>
      rw [mapped hreserve] at hw
      obtain ⟨rs, u, hrs, hw⟩ := Run.bind_ok_iff.mp hw
      cases hw
      have family (r : Value) (hr : r ∈ rs) : r.family = f.target.signature.result.family := by
        rw [← hf.ty_of_mapM hs hrs r hr, Value.family_ty]
      exact ⟨_, rs, u, rfl, rfl, hrs, ArrayOf.values_packed _ family, Run.length_of_mapM hrs⟩
  · rintro hreserve done x rest rs t h u rfl hdone hx
    rw [mapped hreserve]
    exact Run.bind_halt (Run.mapM_halt hdone hx)

theorem filter_filtersFrom (hclosure : f.closureIn s = .ok closure) {element : Ty}
    (helement : v.elementType = .ok element) (hit : v.elements = .ok it)
    (hxs : it.toList = xs.map .ok) (hfamily : ∀ x ∈ xs, x.family = element.family) :
    FiltersFrom call f element xs ((filter [v, .function f]).run call) s := by
  have run := filter_run call f hclosure helement hit hxs hfamily
  refine ⟨by rw [run], ?_, ?_⟩
  · intro w t hw
    rw [run] at hw
    obtain ⟨ys, u, hys, hw⟩ := Run.bind_ok_iff.mp hw
    cases hw
    have some := Run.sublist_of_filterM hys
    refine ⟨_, rfl, rfl, ?_⟩
    rw [ArrayOf.values_packed _ fun y hy => hfamily y (some.subset hy)]
    exact some
  · rintro done x rest ys t h u rfl hdone hx
    rw [run]
    exact Run.bind_halt (Run.filterM_halt hdone (Run.bind_halt hx))

/-- **Builtins that call back are their list functions**, over every way of calling. A callback whose
closure is not there is reported before the sequence is looked at. A sequence that is open or
uncountable is reported and nothing is called. Otherwise `map` is the monadic map of a callback that
is true to its type, unless storage for its results is refused; `filter` is the monadic filter; `fold`
and `reduce` are monadic left folds, the latter from the first element. -/
theorem callbacks_eq [Allocator] (call : Caller) (f : Function) (v initial : Value)
    (hv : v.IsSequence) (s : Store) :
    (∀ d, f.closureIn s = .error d →
      (map [v, .function f]).run call s = (.error (.fault (.defect d) []), s) ∧
      (filter [v, .function f]).run call s = (.error (.fault (.defect d) []), s) ∧
      (fold [v, initial, .function f]).run call s = (.error (.fault (.defect d) []), s) ∧
      (reduce [v, .function f]).run call s = (.error (.fault (.defect d) []), s)) ∧
    ∀ closure, f.closureIn s = .ok closure →
      (∀ cause, v.uncountable? = some cause →
        (map [v, .function f]).run call s = (.error (.fault (.raised cause) []), s) ∧
        (filter [v, .function f]).run call s = (.error (.fault (.raised cause) []), s) ∧
        (fold [v, initial, .function f]).run call s = (.error (.fault (.raised cause) []), s) ∧
        (reduce [v, .function f]).run call s = (.error (.fault (.raised cause) []), s)) ∧
      (v.uncountable? = none →
        (∀ holds, TrueTo call holds f v.members → holds s →
          MapsFrom call f v.members ((map [v, .function f]).run call) s) ∧
        (∀ element, v.elementType = .ok element →
          FiltersFrom call f element v.members ((filter [v, .function f]).run call) s) ∧
        FoldsFrom call f initial v.members ((fold [v, initial, .function f]).run call) s ∧
        (v.members = [] → (reduce [v, .function f]).run call s =
          (.error (.fault (.raised (.emptyReduce "reduce")) []), s)) ∧
        ∀ x xs, v.members = x :: xs →
          FoldsFrom call f x xs ((reduce [v, .function f]).run call) s) := by
  obtain ⟨element, helement, hfamily⟩ := hv.elementType
  refine ⟨fun d hd => run_of_dangling call f v initial hd, fun closure hclosure =>
    ⟨fun cause hcause => ?_, fun hcountable => ?_⟩⟩
  · obtain ⟨hmap, hfold, hreduce, hfilter⟩ := run_of_no_elements call f initial hclosure
      (Value.elements_of_uncountable hcause)
    exact ⟨hmap, hfilter element helement, hfold, hreduce⟩
  · obtain ⟨it, hit, hxs⟩ := Value.toList_elements hv hcountable
    obtain ⟨empty, reduced⟩ := reduce_run call f hclosure hit hxs
    refine ⟨fun _ hf hs => map_mapsFrom hf hs hclosure hit hxs, fun e he => ?_,
      .of_eq (fold_run call f hclosure hit hxs), empty, fun x xs hcons => .of_eq (reduced x xs hcons)⟩
    rw [helement] at he
    cases he
    exact filter_filtersFrom hclosure helement hit hxs hfamily

end Builtin

/-! ## Callbacks of accepted code -/

/-- **Functions of accepted code are true to their types**, in stores whose closures are of their
layouts: guest functions and host functions that abide by their signatures. -/
theorem Code.trueTo {code : Code} {hosts : Nat → Signature → Prop} (hhosts : code.Abides hosts)
    (hcode : code.Accepted (code.Admits hosts)) (hrec : code.DefinesRecursion) (depth : Nat)
    {f : Function} {xs : List Value}
    (hxs : ∀ x ∈ xs, f.Callable (code.Admits hosts) [x]) :
    Builtin.TrueTo (code.call depth) (Store.Of (code.Admits hosts)) f xs := by
  intro x hx s r t hs hcall
  have agreed := Code.callBoxed_agrees hhosts hcode hrec depth f [x] s hs (hxs x hx)
  have kept := agreed.keeps
  rw [hcall] at kept
  exact ⟨(agreed.value r t hcall).ty, kept⟩

namespace Countdowns

/-- The countdown with its closure, which holds nothing but the function itself. -/
def tied : Store :=
  ⟨#[⟨#[⟨⟨"f", Countdown.signature.ty⟩,
    .reference (.function ⟨Countdown.target, some (.selfReference 0)⟩)⟩]⟩], 1⟩

def countdown : Function := ⟨Countdown.target, some (.shared 0)⟩

def numbers : Value := .array ⟨0, .int, .ints #[2, 1]⟩

theorem numbers_isSequence : numbers.IsSequence := by
  refine ⟨ViewOf.inStorage_whole _, by decide, fun x hx => ?_⟩
  obtain ⟨n, -, rfl⟩ := List.mem_map.mp hx
  rfl

theorem tied_of : tied.Of (code.Admits code.standardHosts) := by
  intro id frame hframe i s hs
  match id, i with
  | 0, 0 =>
    cases hframe
    cases hs
    exact ⟨rfl, rfl, .function rfl⟩
  | 0, _ + 1 => cases hframe; cases hs
  | _ + 1, _ => cases hframe

theorem countdown_callable {x : Value} (hx : x ∈ numbers.members) :
    countdown.Callable (code.Admits code.standardHosts) [x] := by
  obtain ⟨n, -, rfl⟩ := List.mem_map.mp hx
  exact ⟨rfl, fun v hv => by cases List.mem_singleton.mp hv; exact .int n, fun h => (nomatch h)⟩

end Countdowns

/-- Mapping the countdown over `[2, 1]` calls its closure once for each of the two. -/
theorem countdowns_mapped :
    Countdowns.numbers.members = [.int 2, .int 1] ∧
      Builtin.MapsFrom (Countdowns.code.call 9) Countdowns.countdown [.int 2, .int 1]
        ((Builtin.map [Countdowns.numbers, .function Countdowns.countdown]).run
          (Countdowns.code.call 9)) Countdowns.tied :=
  ⟨rfl, (((Builtin.callbacks_eq (Countdowns.code.call 9) Countdowns.countdown Countdowns.numbers
    (.int 0) Countdowns.numbers_isSequence Countdowns.tied).2 _ rfl).2 rfl).1 (Store.Of _)
    (Code.trueTo Countdowns.code.abides_standard (Countdowns.code_accepted _)
      Countdowns.code_definesRecursion 9 fun _ hx => Countdowns.countdown_callable hx)
    Countdowns.tied_of⟩

end TypedEval
