import TypedEval.Builtin.Host
import TypedEval.Builtin.Registry
import TypedEval.Proofs.Renaming.Stores

/-!
# Host functions that see no numbers

A host function is given values and may tell apart two functions or two arrays that it was given, but
it cannot see the number that a closure or a storage has. `Native.IsOpaque` says so: called with renamed
arguments it does the renamed thing step by step, takes the number of a new storage as it comes, and
ends in the renamed value or the same fault, for every one-to-one relabeling.

The builtins of the standard library and the further host functions are opaque
(`Builtin.standard_opaque`, `Builtin.Host.named_opaque`).
-/

namespace TypedEval

/-- **A script corresponds to another under new numbers.** -/
inductive Script.Corresponds {α β : Type} (ρ : Relabeling) (g : α → β) :
    Script α → Script β → Prop where
  | done (a : α) : Corresponds ρ g (.done a) (.done (g a))
  | fail (f : Fault) : Corresponds ρ g (.fail f) (.fail f)
  | newStorage {next : Nat → Script α} {next' : Nat → Script β}
      (h : ∀ id, Corresponds ρ g (next id) (next' (ρ.storages id))) :
      Corresponds ρ g (.newStorage next) (.newStorage next')
  | resolve (f : Function) {next : Script α} {next' : Script β} (h : Corresponds ρ g next next') :
      Corresponds ρ g (.resolve f next) (.resolve (f.rename ρ) next')
  | call (f : Function) (args : List Value) {next : Value → Script α} {next' : Value → Script β}
      (h : ∀ v : Value, Corresponds ρ g (next v) (next' (v.rename ρ))) :
      Corresponds ρ g (.call f args next) (.call (f.rename ρ) (args.map (Value.rename ρ)) next')

/-- **A host function sees no numbers.** -/
def Native.IsOpaque (script : Native) : Prop :=
  ∀ ρ : Relabeling, ρ.OneToOne → ∀ args,
    (script args).Corresponds ρ (Value.rename ρ) (script (args.map (Value.rename ρ)))

/-- The same of every host function in a code table. -/
def Code.IsOpaque (code : Code) : Prop := ∀ script, .native script ∈ code.routines → script.IsOpaque

namespace Script.Corresponds

variable {α β γ δ : Type} {ρ : Relabeling} {g : α → β} {h : γ → δ}

theorem bind {m : Script α} {n : Script β} {k : α → Script γ} {l : β → Script δ}
    (hm : m.Corresponds ρ g n) (hk : ∀ a, (k a).Corresponds ρ h (l (g a))) :
    (m >>= k).Corresponds ρ h (n >>= l) := by
  show (m.bind k).Corresponds ρ h (n.bind l)
  induction hm with
  | done a => exact hk a
  | fail f => exact .fail f
  | newStorage _ ih => exact .newStorage ih
  | resolve f _ ih => exact .resolve f ih
  | call f args _ ih => exact .call f args ih

theorem check {x : Except Fault α} {y : Except Fault β} (hx : y = x.map g) :
    (liftM x : Script α).Corresponds ρ g (liftM y : Script β) := by
  subst hx
  cases x with
  | ok a => exact .done a
  | error f => exact .fail f

theorem defect {x : Except Defect α} {y : Except Defect β} (hx : y = x.map g) :
    (liftM x : Script α).Corresponds ρ g (liftM y : Script β) := by
  subst hx
  cases x with
  | ok a => exact .done a
  | error f => exact .fail _

theorem cause (x : Except Cause α) :
    (liftM x : Script α).Corresponds ρ id (liftM x : Script α) := by
  cases x with
  | ok a => exact .done a
  | error f => exact .fail _

/-- What a script ends in, renamed. -/
theorem ends {a : α} {b : β} (hb : b = g a) : (Script.done a).Corresponds ρ g (.done b) :=
  hb ▸ .done a

theorem callSite (f : Function) :
    (Script.callSite f).Corresponds ρ id (Script.callSite (f.rename ρ)) :=
  .resolve f (.done ())

theorem callFunction (f : Function) (args : List Value) :
    (Script.callFunction f args).Corresponds ρ (Value.rename ρ)
      (Script.callFunction (f.rename ρ) (args.map (Value.rename ρ))) :=
  .call f args fun v => .done v

theorem finish (b : Builder) :
    (Script.finish b).Corresponds ρ (Value.rename ρ) (Script.finish (b.rename ρ)) := by
  refine .newStorage fun id => ?_
  rw [b.finish_rename, ← Value.rename_array]
  exact .done _

/-- **Running corresponding scripts**, with ways of calling of which one follows the other. -/
theorem run_follows {last : Store} {c d : Caller}
    (hc : ∀ f args, Run.Follows (.stores ρ last) (Value.rename ρ) (c f args)
      (d (f.rename ρ) (args.map (Value.rename ρ))))
    {m : Script α} {n : Script β} (hm : m.Corresponds ρ g n) :
    Run.Follows (.stores ρ last) g (m.run c) (n.run d) := by
  induction hm with
  | done a => exact .pure a
  | fail f => exact .halt _
  | newStorage _ ih => exact .bind newStorage_follows ih
  | resolve f _ ih =>
    refine .bind (g := Option.map (renameClosure ρ)) (.read fun s t hst => ?_) fun _ => ih
    rw [f.closureIn_rename hst, lift_defect_map]
  | call f args _ ih => exact .bind (hc f args) ih

end Script.Corresponds

/-! ## Arguments -/

theorem argument_rename (ρ : Relabeling) (args : List Value) (i : Nat) :
    argument (args.map (Value.rename ρ)) i = (argument args i).map (Value.rename ρ) := by
  unfold argument
  rw [List.getElem?_map]
  cases args[i]? <;> rfl

namespace Script.Corresponds

variable {ρ : Relabeling}

theorem argument (args : List Value) (i : Nat) :
    (liftM (TypedEval.argument args i) : Script Value).Corresponds ρ (Value.rename ρ)
      (liftM (TypedEval.argument (args.map (Value.rename ρ)) i) : Script Value) :=
  .check (argument_rename ρ args i)

theorem expectBool (v : Value) : (liftM v.expectBool : Script Bool).Corresponds ρ id
    (liftM (v.rename ρ).expectBool : Script Bool) :=
  .defect (by rw [v.expectBool_rename, Except.map_id]; rfl)

theorem expectInt (v : Value) : (liftM v.expectInt : Script Int64).Corresponds ρ id
    (liftM (v.rename ρ).expectInt : Script Int64) :=
  .defect (by rw [v.expectInt_rename, Except.map_id]; rfl)

theorem expectFloat (v : Value) : (liftM v.expectFloat : Script Float).Corresponds ρ id
    (liftM (v.rename ρ).expectFloat : Script Float) :=
  .defect (by rw [v.expectFloat_rename, Except.map_id]; rfl)

theorem expectFunction (v : Value) :
    (liftM v.expectFunction : Script Function).Corresponds ρ (Function.rename ρ)
      (liftM (v.rename ρ).expectFunction : Script Function) :=
  .defect (v.expectFunction_rename ρ)

theorem elementType (v : Value) : (liftM v.elementType : Script Ty).Corresponds ρ id
    (liftM (v.rename ρ).elementType : Script Ty) :=
  .defect (by rw [v.elementType_rename, Except.map_id]; rfl)

theorem elements (v : Value) :
    (liftM v.elements : Script Elements).Corresponds ρ (Elements.rename ρ)
      (liftM (v.rename ρ).elements : Script Elements) :=
  .check (v.elements_rename ρ)

end Script.Corresponds

namespace Builtin

open Script.Corresponds

/-! ## Numeric builtins -/

/-- The numeric builtins look at numbers of the guest alone. -/
theorem math_opaque [Allocator] {b : Builtin} (hb : b ∈ math) : b.script.IsOpaque := by
  simp only [math, List.mem_cons, List.not_mem_nil, or_false] at hb
  intro ρ _ args
  obtain rfl | rfl | rfl | rfl | rfl | rfl | rfl | rfl | rfl := hb
  · refine .bind (.argument args 0) fun v => .bind (.expectFloat v) fun x => ?_
    simp only [id]
    split
    · exact .fail _
    · exact .ends (by simp)
  · refine .bind (.argument args 0) fun v => .bind (.expectInt v) fun n => ?_
    exact .bind (.cause _) fun m => .ends (by simp)
  · exact .bind (.argument args 0) fun v => .bind (.expectFloat v) fun x => .ends (by simp)
  · exact .bind (.argument args 0) fun v => .bind (.expectInt v) fun n => .ends (by simp)
  · exact .bind (.argument args 0) fun v => .bind (.expectFloat v) fun x => .ends (by simp)
  · exact .bind (.argument args 0) fun v => .bind (.expectFloat v) fun x => .ends (by simp)
  · refine .bind (.argument args 0) fun v => .bind (.expectInt v) fun n => ?_
    simp only [id]
    split
    · exact .fail _
    · split
      · exact .fail _
      · let zeros : Builder := ⟨.float, .floats (Array.replicate n.toInt.toNat 0.0)⟩
        have renamed : zeros.rename ρ = zeros := by simp only [zeros, Builder.rename, Storage.rename]
        have finished : (Script.finish zeros).Corresponds ρ (Value.rename ρ) _ := .finish zeros
        rwa [renamed] at finished
  · refine .bind (.argument args 0) fun v => .bind (.expectInt v) fun first => ?_
    refine .bind (.argument args 1) fun w => .bind (.expectInt w) fun last => ?_
    exact .bind (.cause _) fun r => .ends (by simp)
  · refine .bind (.argument args 0) fun v => .bind (.expectInt v) fun first => ?_
    refine .bind (.argument args 1) fun w => .bind (.expectInt w) fun last => ?_
    refine .bind (.argument args 2) fun u => .bind (.expectInt u) fun step => ?_
    exact .bind (.cause _) fun r => .ends (by simp)

/-! ## Sequence builtins -/

theorem len_opaque : len.IsOpaque := by
  intro ρ _ args
  refine .bind (.argument args 0) fun v => .bind (g := id) ?_ fun n => ?_
  · cases v with
    | range r =>
      rw [Value.rename_range]
      exact .cause r.count
    | array a =>
      have viewed := (Value.array a).expectView_rename ρ
      rw [Value.rename_array] at viewed ⊢
      exact .bind (.defect viewed) fun w => .done _
    | _ =>
      simp only [Value.rename_bool, Value.rename_int, Value.rename_float, Value.rename_function,
        Value.rename_slice]
      exact .bind (.defect (g := ViewOf.rename ρ) rfl) fun w => .done _
  · simp only [id]
    split
    · exact .ends (by simp)
    · exact .fail _

theorem viewToArray_corresponds {ρ : Relabeling} (v : View) :
    (viewToArray v).Corresponds ρ (ArrayOf.rename ρ) (viewToArray (v.rename ρ)) := by
  unfold viewToArray
  rw [v.isWhole_rename]
  split
  · exact .done v.array
  · exact .newStorage fun id => .check (v.copy_rename ρ id)

theorem collect_corresponds [Allocator] {ρ : Relabeling} (builtin : String) (element : Ty)
    (it : Elements) :
    (collect builtin element it).Corresponds ρ (Builder.rename ρ)
      (collect builtin element (it.rename ρ)) := by
  unfold collect
  rw [it.remaining_rename]
  cases h : Builder.withCapacity element it.remaining with
  | error refusal => exact .fail _
  | ok b =>
    cases Builder.withCapacity_eq_ok h
    have filled := it.fill_rename ρ it.remaining (.new element)
    rw [Builder.new_rename] at filled
    exact .check filled

theorem toArray_opaque [Allocator] : toArray.IsOpaque := by
  intro ρ _ args
  refine .bind (.argument args 0) fun v => ?_
  have collected (v : Value) : (do
      let element ← v.elementType
      let it ← v.elements
      Script.finish (← collect "to_array" element it) : Script Value).Corresponds ρ
        (Value.rename ρ) (do
      let element ← (v.rename ρ).elementType
      let it ← (v.rename ρ).elements
      Script.finish (← collect "to_array" element it)) :=
    .bind (.elementType v) fun element => .bind (.elements v) fun it =>
      .bind (collect_corresponds "to_array" element it) fun b => .finish b
  cases v with
  | array a =>
    rw [Value.rename_array]
    exact .ends (by simp)
  | slice w =>
    rw [Value.rename_slice]
    exact .bind (viewToArray_corresponds w) fun a => .ends (by simp)
  | bool b => simpa only [Value.rename_bool] using collected (.bool b)
  | int n => simpa only [Value.rename_int] using collected (.int n)
  | float x => simpa only [Value.rename_float] using collected (.float x)
  | function f => simpa only [Value.rename_function] using collected (.function f)
  | range r => simpa only [Value.rename_range] using collected (.range r)

section

variable (ρ : Relabeling) (f : Function) (limit : Nat) (it : Elements)

theorem mapInto_corresponds (b : Builder) :
    (mapInto f limit it b).Corresponds ρ (Builder.rename ρ)
      (mapInto (f.rename ρ) limit (it.rename ρ) (b.rename ρ)) := by
  induction limit generalizing it b with
  | zero => exact .done b
  | succ limit ih =>
    unfold mapInto
    rw [it.next?_rename ρ]
    cases it.next? with
    | none => exact .done b
    | some r =>
      obtain ⟨v, rest⟩ := r
      refine .bind (.check rfl) fun x => .bind (.callFunction f [x]) fun y => ?_
      exact .bind (.check (b.push_rename ρ y)) fun c => ih rest c

theorem filterInto_corresponds (b : Builder) :
    (filterInto f limit it b).Corresponds ρ (Builder.rename ρ)
      (filterInto (f.rename ρ) limit (it.rename ρ) (b.rename ρ)) := by
  induction limit generalizing it b with
  | zero => exact .done b
  | succ limit ih =>
    unfold filterInto
    rw [it.next?_rename ρ]
    cases it.next? with
    | none => exact .done b
    | some r =>
      obtain ⟨v, rest⟩ := r
      refine .bind (.check rfl) fun x => .bind (.callFunction f [x]) fun y => ?_
      refine .bind (.expectBool y) fun keep => ?_
      cases keep with
      | true => exact .bind (.check (b.push_rename ρ x)) fun c => ih rest c
      | false => exact ih rest b

theorem foldOver_corresponds (acc : Value) :
    (foldOver f limit it acc).Corresponds ρ (Value.rename ρ)
      (foldOver (f.rename ρ) limit (it.rename ρ) (acc.rename ρ)) := by
  induction limit generalizing it acc with
  | zero => exact .done acc
  | succ limit ih =>
    unfold foldOver
    rw [it.next?_rename ρ]
    cases it.next? with
    | none => exact .done acc
    | some r =>
      obtain ⟨v, rest⟩ := r
      exact .bind (.check rfl) fun x => .bind (.callFunction f [acc, x]) fun y => ih rest y

end

theorem map_opaque [Allocator] : map.IsOpaque := by
  intro ρ _ args
  refine .bind (.argument args 1) fun w => .bind (.expectFunction w) fun f => ?_
  refine .bind (.callSite f) fun _ => ?_
  refine .bind (.argument args 0) fun v => .bind (.elements v) fun it => ?_
  simp only [Function.target_rename, Elements.remaining_rename]
  cases h : Builder.withCapacity f.target.signature.result it.remaining with
  | error refusal => exact .fail _
  | ok b =>
    cases Builder.withCapacity_eq_ok h
    have mapped := mapInto_corresponds ρ f it.remaining it (.new f.target.signature.result)
    rw [Builder.new_rename] at mapped
    exact .bind mapped fun c => .finish c

theorem filter_opaque : filter.IsOpaque := by
  intro ρ _ args
  refine .bind (.argument args 1) fun w => .bind (.expectFunction w) fun f => ?_
  refine .bind (.callSite f) fun _ => ?_
  refine .bind (.argument args 0) fun v => .bind (.elementType v) fun element => ?_
  refine .bind (.elements v) fun it => ?_
  have filtered := filterInto_corresponds ρ f it.remaining it (.new element)
  rw [Builder.new_rename] at filtered
  rw [it.remaining_rename]
  exact .bind filtered fun c => .finish c

theorem fold_opaque : fold.IsOpaque := by
  intro ρ _ args
  refine .bind (.argument args 2) fun w => .bind (.expectFunction w) fun f => ?_
  refine .bind (.callSite f) fun _ => ?_
  refine .bind (.argument args 1) fun acc => ?_
  refine .bind (.argument args 0) fun v => .bind (.elements v) fun it => ?_
  rw [it.remaining_rename]
  exact foldOver_corresponds ρ f it.remaining it acc

theorem reduce_opaque : reduce.IsOpaque := by
  intro ρ _ args
  refine .bind (.argument args 1) fun w => .bind (.expectFunction w) fun f => ?_
  refine .bind (.callSite f) fun _ => ?_
  refine .bind (.argument args 0) fun v => .bind (.elements v) fun it => ?_
  rw [it.next?_rename ρ]
  cases it.next? with
  | none => exact .fail _
  | some r =>
    obtain ⟨first, rest⟩ := r
    refine .bind (.check rfl) fun x => ?_
    rw [rest.remaining_rename]
    exact foldOver_corresponds ρ f rest.remaining rest x

/-- **Every builtin of the standard library sees no numbers.** -/
theorem standard_opaque {b : Builtin} (hb : b.IsStandard) : b.script.IsOpaque := by
  obtain ⟨_, hb⟩ := hb
  obtain hb | hb := List.mem_append.mp hb
  · exact math_opaque hb
  · obtain ⟨p, -, hb⟩ := List.mem_flatMap.mp hb
    simp only [onSequence, List.mem_append, List.mem_cons, List.not_mem_nil, or_false,
      List.mem_flatMap] at hb
    obtain (rfl | rfl | rfl | rfl) | ⟨result, -, rfl | rfl⟩ := hb
    · exact len_opaque
    · exact toArray_opaque
    · exact filter_opaque
    · exact reduce_opaque
    · exact map_opaque
    · exact fold_opaque

/-! ## Further host functions -/

/-- **Every further host function sees no numbers**: those that show a value show no number. -/
theorem Host.named_opaque {name : String} {script : Native} (h : (name, script) ∈ Host.named) :
    script.IsOpaque := by
  simp only [Host.named, List.mem_cons, List.not_mem_nil, or_false, Prod.mk.injEq] at h
  intro ρ _ args
  obtain ⟨-, rfl⟩ | ⟨-, rfl⟩ | ⟨-, rfl⟩ | ⟨-, rfl⟩ | ⟨-, rfl⟩ | ⟨-, rfl⟩ | ⟨-, rfl⟩ | ⟨-, rfl⟩ := h
  · refine .bind (.argument args 0) fun v => .bind (.expectInt v) fun a => ?_
    refine .bind (.argument args 1) fun w => .bind (.expectInt w) fun b => ?_
    exact .bind (.cause _) fun n => .ends (by simp)
  · refine .bind (.argument args 0) fun v => .bind (.expectFloat v) fun a => ?_
    refine .bind (.argument args 1) fun w => .bind (.expectFloat w) fun b => ?_
    exact .ends (by simp)
  · exact .bind (.argument args 0) fun v => .bind (.expectInt v) fun n => .ends (by simp)
  · refine .bind (.argument args 0) fun v => .bind (.expectInt v) fun n => ?_
    exact .bind (.cause _) fun m => .ends (by simp)
  · exact .argument args 0
  · exact .ends (by simp)
  · refine .bind (.argument args 0) fun v => .bind (g := id) ?_ fun shown => .fail _
    exact .check (by rw [v.text_rename, Except.map_id]; rfl)
  · refine .bind (.argument args 0) fun v => .bind (g := id) ?_ fun shown => .fail _
    exact .check (by rw [v.describe_rename, Except.map_id]; rfl)

end Builtin

end TypedEval
