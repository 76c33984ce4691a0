import TypedEval.Builtin.Registry
import TypedEval.Proofs.Node.Items
import TypedEval.Proofs.SelfReference.Basic

/-!
# What host functions hand on

A host function is not guest code, and nothing in the evaluator checks the functions that it returns
or calls. `Script.HandsOn` says that it makes none up: every function that a script calls, passes as
an argument or returns is one that it knows, and it knows what it was given and what its calls have
returned. The set of known functions only grows along a script. A guest function makes functions only
by its definitions; the others that it has are its constants (`Routine.HandsOn`).

Every builtin of the standard library is of this kind (`Builtin.standard_handsOn`).
-/

namespace TypedEval

/-- **A script hands on only functions that it knows**; `gives` says that of what it ends in. -/
inductive Script.HandsOn {α : Type} (gives : (Function → Prop) → α → Prop) :
    Script α → (Function → Prop) → Prop where
  | done {a : α} {known : Function → Prop} (h : gives known a) : HandsOn gives (.done a) known
  | fail (f : Fault) (known : Function → Prop) : HandsOn gives (.fail f) known
  | newStorage {next : Nat → Script α} {known : Function → Prop}
      (h : ∀ id, HandsOn gives (next id) known) : HandsOn gives (.newStorage next) known
  | resolve (f : Function) {next : Script α} {known : Function → Prop}
      (h : HandsOn gives next known) : HandsOn gives (.resolve f next) known
  | call {f : Function} {args : List Value} {next : Value → Script α} {known : Function → Prop}
      (hf : known f) (hargs : ∀ v ∈ args, v.Holds known)
      (h : ∀ more : Function → Prop, (∀ g, known g → more g) → ∀ v, v.Holds more →
        HandsOn gives (next v) more) : HandsOn gives (.call f args next) known

/-- **A host function hands on only what it is given**: by its caller, by the functions that it calls,
and by the host in advance. -/
def Native.HandsOn (given : Function → Prop) (script : Native) : Prop :=
  ∀ known : Function → Prop, (∀ f, given f → known f) →
    ∀ args, (∀ v ∈ args, v.Holds known) →
      (script args).HandsOn (fun known v => v.Holds known) known

/-- The functions in a constant of a tree have a property. -/
def Item.Holds (good : Function → Prop) : Item → Prop
  | .constant v => v.Holds good
  | _ => True

/-- **A routine hands on only what it is given**: the constants of a body are given in advance. -/
def Routine.HandsOn (given : Function → Prop) : Routine → Prop
  | .user body => body.node.node.All (Item.Holds given)
  | .native script => script.HandsOn given

/-- The same of every routine in a code table. -/
def Code.HandsOn (code : Code) (given : Function → Prop) : Prop :=
  ∀ routine ∈ code.routines, routine.HandsOn given

section

variable {given more : Function → Prop}

theorem Item.Holds.imp (h : ∀ f, given f → more f) {i : Item} (hi : i.Holds given) :
    i.Holds more := by
  cases i with
  | constant v => exact Value.Holds.imp h hi
  | _ => trivial

/-- More may be given. -/
theorem Routine.HandsOn.imp (h : ∀ f, given f → more f) {r : Routine} (hr : r.HandsOn given) :
    r.HandsOn more := by
  cases r with
  | user body => exact Node.All.imp (fun _ hi => hi.imp h) hr
  | native script => exact fun known hknown => hr known fun f hf => hknown f (h f hf)

theorem Code.HandsOn.imp (h : ∀ f, given f → more f) {code : Code} (hcode : code.HandsOn given) :
    code.HandsOn more :=
  fun r hr => (hcode r hr).imp h

theorem Code.HandsOn.add {code : Code} (hcode : code.HandsOn given) {r : Routine}
    (hr : r.HandsOn given) : (code.add r).HandsOn given := by
  intro q hq
  obtain hq | rfl := Array.mem_push.mp hq
  · exact hcode q hq
  · exact hr

end

namespace Script.HandsOn

variable {α β : Type} {p : (Function → Prop) → α → Prop} {q : (Function → Prop) → β → Prop}
  {known : Function → Prop}

/-- The rest of a script knows at least what its first part knew. -/
theorem bind {m : Script α} {k : α → Script β} (h : m.HandsOn p known)
    (hk : ∀ (more : Function → Prop) a, (∀ g, known g → more g) → p more a →
      (k a).HandsOn q more) :
    (m >>= k).HandsOn q known := by
  show (m.bind k).HandsOn q known
  induction h with
  | done ha => exact hk _ _ (fun _ hg => hg) ha
  | fail f known => exact .fail f known
  | newStorage _ ih => exact .newStorage fun id => ih id hk
  | resolve f _ ih => exact .resolve f (ih hk)
  | call hf hargs _ ih =>
    refine .call hf hargs fun more grown v hv => ih more grown v hv ?_
    exact fun further a hfurther ha => hk further a (fun g hg => hfurther g (grown g hg)) ha

theorem check {x : Except Fault α} (h : ∀ a, x = .ok a → p known a) :
    (liftM x : Script α).HandsOn p known := by
  cases x with
  | ok a => exact .done (h a rfl)
  | error f => exact .fail _ known

theorem cause {x : Except Cause α} (h : ∀ a, x = .ok a → p known a) :
    (liftM x : Script α).HandsOn p known := by
  cases x with
  | ok a => exact .done (h a rfl)
  | error f => exact .fail _ known

theorem bind_check {x : Except Fault α} {k : α → Script β}
    (h : ∀ a, x = .ok a → (k a).HandsOn q known) :
    (liftM x >>= k : Script β).HandsOn q known := by
  cases x with
  | ok a => exact h a rfl
  | error f => exact .fail _ known

theorem bind_defect {x : Except Defect α} {k : α → Script β}
    (h : ∀ a, x = .ok a → (k a).HandsOn q known) :
    (liftM x >>= k : Script β).HandsOn q known := by
  cases x with
  | ok a => exact h a rfl
  | error f => exact .fail _ known

theorem bind_cause {x : Except Cause α} {k : α → Script β}
    (h : ∀ a, x = .ok a → (k a).HandsOn q known) :
    (liftM x >>= k : Script β).HandsOn q known := by
  cases x with
  | ok a => exact h a rfl
  | error f => exact .fail _ known

theorem callSite {f : Function} {k : Unit → Script β} (h : (k ()).HandsOn q known) :
    (Script.callSite f >>= k).HandsOn q known :=
  .resolve f h

/-- A known function is called with known arguments, and what it returns is known from then on. -/
theorem bind_call {f : Function} {args : List Value} {k : Value → Script β} (hf : known f)
    (hargs : ∀ v ∈ args, v.Holds known)
    (hk : ∀ (more : Function → Prop) v, (∀ g, known g → more g) → v.Holds more →
      (k v).HandsOn q more) :
    (callFunction f args >>= k).HandsOn q known :=
  .call hf hargs fun more grown v hv => hk more v grown hv

theorem finish {b : Builder} (hb : b.storage.Each (Value.Holds known)) :
    (Script.finish b).HandsOn (fun known v => v.Holds known) known :=
  .newStorage fun _ => .done (.array hb)

end Script.HandsOn

/-- An argument that was read is one of the arguments. -/
theorem mem_of_argument {args : List Value} {i : Nat} {v : Value} (h : argument args i = .ok v) :
    v ∈ args := by
  unfold argument at h
  split at h
  · next heq => cases h; exact List.mem_of_getElem? heq
  · cases h

namespace Builtin

variable {given : Function → Prop}

/-! ## Numeric builtins -/

/-- The numeric builtins call nothing and end in numbers, arrays of floats and ranges. -/
theorem math_handsOn [Allocator] {b : Builtin} (hb : b ∈ math) : b.script.HandsOn given := by
  simp only [math, List.mem_cons, List.not_mem_nil, or_false] at hb
  intro known _ args _
  obtain rfl | rfl | rfl | rfl | rfl | rfl | rfl | rfl | rfl := hb
  · refine .bind_check fun _ _ => .bind_defect fun _ _ => ?_
    split
    · exact .fail _ _
    · exact .done (.float _)
  · refine .bind_check fun _ _ => .bind_defect fun _ _ => ?_
    exact .bind_cause fun _ _ => .done (.int _)
  · exact .bind_check fun _ _ => .bind_defect fun _ _ => .done (.float _)
  · exact .bind_check fun _ _ => .bind_defect fun _ _ => .done (.int _)
  · exact .bind_check fun _ _ => .bind_defect fun _ _ => .done (.float _)
  · exact .bind_check fun _ _ => .bind_defect fun _ _ => .done (.bool _)
  · refine .bind_check fun _ _ => .bind_defect fun _ _ => ?_
    split
    · exact .fail _ _
    · split
      · exact .fail _ _
      · exact .finish fun _ hv => (nomatch hv)
  · exact .bind_check fun _ _ => .bind_defect fun _ _ => .bind_check fun _ _ =>
      .bind_defect fun _ _ => .bind_cause fun _ _ => .done (.range _)
  · exact .bind_check fun _ _ => .bind_defect fun _ _ => .bind_check fun _ _ =>
      .bind_defect fun _ _ => .bind_check fun _ _ => .bind_defect fun _ _ =>
        .bind_cause fun _ _ => .done (.range _)

/-! ## Sequence builtins -/

theorem len_handsOn : len.HandsOn given := by
  intro known _ args _
  refine .bind_check fun v _ => .bind (p := fun _ _ => True) ?_ fun _ n _ _ => ?_
  · split
    · next r _ => exact .cause fun _ _ => trivial
    · exact .bind_defect fun _ _ => .done trivial
  · split
    · exact .done (.int _)
    · exact .fail _ _

theorem toArray_handsOn [Allocator] : toArray.HandsOn given := by
  intro known _ args hargs
  refine .bind_check fun v hv => ?_
  have hv := hargs v (mem_of_argument hv)
  split
  · exact .done hv
  · next w =>
    cases hv with
    | slice elements =>
      refine .bind (p := fun known a => a.storage.Each (Value.Holds known)) ?_
        fun _ _ _ ha => .done (.array ha)
      unfold viewToArray
      split
      · exact .done elements
      · refine .newStorage fun id => ?_
        exact .check fun a ha => ViewOf.each_copy Value.holds_of_primitive elements ha
  · refine .bind_defect fun element _ => .bind_check fun it hit => ?_
    have hit := hv.elements hit
    refine .bind (p := fun known b => b.storage.Each (Value.Holds known)) ?_
      fun _ _ _ hb => .finish hb
    unfold collect
    split
    · exact .fail _ _
    · next b hb =>
      cases Builder.withCapacity_eq_ok hb
      exact .check fun c hc => hit.fill Value.holds_of_primitive (Storage.each_empty _) hc

section

variable {f : Function} {known : Function → Prop} {it : Elements} {b : Builder}

/-- Each round of `map` knows what the rounds before it knew. -/
theorem mapInto_handsOn (limit : Nat) (hf : known f) (hit : it.Each (Value.Holds known))
    (hb : b.storage.Each (Value.Holds known)) :
    (mapInto f limit it b).HandsOn (fun known b => b.storage.Each (Value.Holds known)) known := by
  induction limit generalizing it b known with
  | zero => exact .done hb
  | succ limit ih =>
    unfold mapInto
    split
    · exact .done hb
    · next v rest hnext =>
      obtain ⟨hv, hrest⟩ := hit.next Value.holds_of_primitive hnext
      refine .bind_check fun x hx => ?_
      refine .bind_call hf (List.forall_mem_singleton.mpr (hv x hx)) fun more r grown hr => ?_
      refine .bind_check fun c hc => ih (grown f hf) (hrest.imp fun _ => .imp grown) ?_
      exact Builder.each_push (fun w hw => (hb w hw).imp grown) hr hc

theorem filterInto_handsOn (limit : Nat) (hf : known f) (hit : it.Each (Value.Holds known))
    (hb : b.storage.Each (Value.Holds known)) :
    (filterInto f limit it b).HandsOn (fun known b => b.storage.Each (Value.Holds known))
      known := by
  induction limit generalizing it b known with
  | zero => exact .done hb
  | succ limit ih =>
    unfold filterInto
    split
    · exact .done hb
    · next v rest hnext =>
      obtain ⟨hv, hrest⟩ := hit.next Value.holds_of_primitive hnext
      refine .bind_check fun x hx => ?_
      refine .bind_call hf (List.forall_mem_singleton.mpr (hv x hx)) fun more r grown hr => ?_
      have hrest := hrest.imp fun _ => Value.Holds.imp grown
      have hb : b.storage.Each (Value.Holds more) := fun w hw => (hb w hw).imp grown
      refine .bind_defect fun keep _ => ?_
      split
      · exact .bind_check fun c hc =>
          ih (grown f hf) hrest (Builder.each_push hb ((hv x hx).imp grown) hc)
      · exact ih (grown f hf) hrest hb

theorem foldOver_handsOn (limit : Nat) {acc : Value} (hf : known f)
    (hit : it.Each (Value.Holds known)) (hacc : acc.Holds known) :
    (foldOver f limit it acc).HandsOn (fun known v => v.Holds known) known := by
  induction limit generalizing it acc known with
  | zero => exact .done hacc
  | succ limit ih =>
    unfold foldOver
    split
    · exact .done hacc
    · next v rest hnext =>
      obtain ⟨hv, hrest⟩ := hit.next Value.holds_of_primitive hnext
      refine .bind_check fun x hx => ?_
      refine .bind_call hf (List.forall_mem_cons.mpr
        ⟨hacc, List.forall_mem_singleton.mpr (hv x hx)⟩) fun more r grown hr => ?_
      exact ih (grown f hf) (hrest.imp fun _ => .imp grown) hr

end

theorem map_handsOn [Allocator] : map.HandsOn given := by
  intro known _ args hargs
  refine .bind_check fun w hw => .bind_defect fun f hf => .callSite <| .bind_check fun v hv =>
    .bind_check fun it hit => ?_
  have hf := (hargs w (mem_of_argument hw)).function_of hf
  have hit := (hargs v (mem_of_argument hv)).elements hit
  split
  · exact .fail _ _
  · next b hb =>
    cases Builder.withCapacity_eq_ok hb
    exact .bind (mapInto_handsOn _ hf hit (Storage.each_empty _)) fun _ _ _ hc => .finish hc

theorem filter_handsOn : filter.HandsOn given := by
  intro known _ args hargs
  refine .bind_check fun w hw => .bind_defect fun f hf => .callSite <| .bind_check fun v hv =>
    .bind_defect fun element _ => .bind_check fun it hit => ?_
  have hf := (hargs w (mem_of_argument hw)).function_of hf
  have hit := (hargs v (mem_of_argument hv)).elements hit
  exact .bind (filterInto_handsOn _ hf hit (Storage.each_empty _)) fun _ _ _ hc => .finish hc

theorem fold_handsOn : fold.HandsOn given := by
  intro known _ args hargs
  refine .bind_check fun w hw => .bind_defect fun f hf => .callSite <| .bind_check fun acc hacc =>
    .bind_check fun v hv => .bind_check fun it hit => ?_
  have hf := (hargs w (mem_of_argument hw)).function_of hf
  have hit := (hargs v (mem_of_argument hv)).elements hit
  exact foldOver_handsOn _ hf hit (hargs acc (mem_of_argument hacc))

theorem reduce_handsOn : reduce.HandsOn given := by
  intro known _ args hargs
  refine .bind_check fun w hw => .bind_defect fun f hf => .callSite <| .bind_check fun v hv =>
    .bind_check fun it hit => ?_
  have hf := (hargs w (mem_of_argument hw)).function_of hf
  have hit := (hargs v (mem_of_argument hv)).elements hit
  split
  · exact .fail _ _
  · next first rest hnext =>
    obtain ⟨hfirst, hrest⟩ := hit.next Value.holds_of_primitive hnext
    exact .bind_check fun x hx => foldOver_handsOn _ hf hrest (hfirst x hx)

/-- **Every builtin of the standard library hands on only what it is given.** -/
theorem standard_handsOn {b : Builtin} (hb : b.IsStandard) : b.script.HandsOn given := by
  obtain ⟨_, hb⟩ := hb
  obtain hb | hb := List.mem_append.mp hb
  · exact math_handsOn hb
  · obtain ⟨p, -, hb⟩ := List.mem_flatMap.mp hb
    simp only [onSequence, List.mem_append, List.mem_cons, List.not_mem_nil, or_false,
      List.mem_flatMap] at hb
    obtain (rfl | rfl | rfl | rfl) | ⟨result, -, rfl | rfl⟩ := hb
    · exact len_handsOn
    · exact toArray_handsOn
    · exact filter_handsOn
    · exact reduce_handsOn
    · exact map_handsOn
    · exact fold_handsOn

end Builtin

end TypedEval
