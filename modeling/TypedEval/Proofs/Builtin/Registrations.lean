import Mathlib.Data.List.Dedup
import Mathlib.Data.Finset.Card
import TypedEval.Builtin.Registry
import TypedEval.Proofs.Check

/-!
# What a registry holds after any registrations

A registry is filled by registrations, one after another: of any name, at any type, and again at a
name and type that were registered before. What it holds then is the **last function under each
key**, the key being the name with the type, in the order of the registrations
(`Registry.Reflects.of_entries`). Each query reads that list, so each is a query about the history.

One step does the work: registering drops what stands under the key and adds the new function behind
everything else, and that is what the last ones under each key do when a history grows by one
(`lastOfEach_concat`).
-/

namespace TypedEval

/-! ## The last under each key -/

section

variable {α κ : Type} [DecidableEq κ] (key : α → κ)

/-- **The last ones under each key**, in order: those that no later one of their key follows. -/
def lastOfEach : List α → List α
  | [] => []
  | a :: l => if key a ∈ l.map key then lastOfEach l else a :: lastOfEach l

variable {l : List α} {a : α} {k : κ}

/-- No key is lost. -/
theorem mem_map_lastOfEach : k ∈ (lastOfEach key l).map key ↔ k ∈ l.map key := by
  induction l with
  | nil => rfl
  | cons a l ih =>
    by_cases h : key a ∈ l.map key
    · rw [lastOfEach, if_pos h, ih, List.map_cons, List.mem_cons]
      exact ⟨.inr, fun hk => hk.elim (fun heq => heq ▸ h) id⟩
    · rw [lastOfEach, if_neg h, List.map_cons, List.map_cons, List.mem_cons, List.mem_cons, ih]

/-- No key is there twice. -/
theorem pairwise_lastOfEach : (lastOfEach key l).Pairwise fun a b => key a ≠ key b := by
  induction l with
  | nil => exact .nil
  | cons a l ih =>
    by_cases h : key a ∈ l.map key
    · rw [lastOfEach, if_pos h]
      exact ih
    · rw [lastOfEach, if_neg h]
      refine .cons (fun b hb heq => h ?_) ih
      rw [← mem_map_lastOfEach key, heq]
      exact List.mem_map_of_mem hb

/-- **One more at the end** replaces what was under its key and stands behind everything else. -/
theorem lastOfEach_concat :
    lastOfEach key (l ++ [a]) = (lastOfEach key l).filter (fun b => key b ≠ key a) ++ [a] := by
  induction l with
  | nil => simp [lastOfEach]
  | cons b l ih =>
    simp only [List.cons_append, lastOfEach, List.map_append, List.mem_append, ih]
    by_cases h : key b ∈ l.map key
    · rw [if_pos (.inl h), if_pos h]
    · by_cases heq : key b = key a
      · rw [if_pos (.inr (by simp [heq])), if_neg h, List.filter_cons_of_neg (by simp [heq])]
      · rw [if_neg (by simp [h, heq]), if_neg h, List.filter_cons_of_pos (by simp [heq]),
          List.cons_append]

/-- The one under a key is the last that was there under it. -/
theorem find?_lastOfEach :
    (lastOfEach key l).find? (fun b => key b = k) = (l.filter fun b => key b = k).getLast? := by
  induction l using List.reverseRecOn with
  | nil => rfl
  | append_singleton l a ih =>
    rw [lastOfEach_concat, List.find?_append, List.filter_append, List.getLast?_append, ← ih]
    by_cases h : key a = k
    · have none : ((lastOfEach key l).filter fun b => key b ≠ key a).find? (fun b => key b = k)
          = none := by
        rw [List.find?_eq_none]
        intro b hb
        simpa [← h] using (List.mem_filter.mp hb).2
      rw [none]
      simp [h]
    · have same : ((lastOfEach key l).filter fun b => key b ≠ key a).find? (fun b => key b = k)
          = (lastOfEach key l).find? fun b => key b = k := by
        rw [List.find?_filter]
        congr 1
        funext b
        by_cases hb : key b = k
        · simp [hb, Ne.symm h]
        · simp [hb]
      rw [same]
      simp [h]

/-- There is one for each key. -/
theorem length_lastOfEach : (lastOfEach key l).length = (l.map key).toFinset.card := by
  have nodup : ((lastOfEach key l).map key).Nodup := List.pairwise_map.mpr (pairwise_lastOfEach key)
  rw [← List.length_map (f := key), ← List.toFinset_card_of_nodup nodup]
  congr 1
  ext k
  rw [List.mem_toFinset, List.mem_toFinset, mem_map_lastOfEach]

end

/-! ## Registrations -/

/-- **A registration** that is asked for: of a host function, under a name and at a type. -/
structure Registration where
  name : String
  ty : Ty
  script : Native

/-- The registration that installs a builtin. -/
def Builtin.registration (b : Builtin) : Registration := ⟨b.name, b.signature.ty, b.script⟩

/-- The key of a registered function: its name and its type. -/
def Registry.key (e : String × Function) : String × Ty := (e.1, e.2.ty)

namespace Library

/-- **Asks for a registration.** What is refused leaves the library as it was. -/
def attempt (l : Library) (c : Registration) : Except Defect Function × Library :=
  match l.register c.name c.ty c.script with
  | .ok (f, l) => (.ok f, l)
  | .error d => (.error d, l)

/-- The library after registrations. -/
def after (l : Library) : List Registration → Library
  | [] => l
  | c :: cs => (l.attempt c).2.after cs

/-- **What registrations give back**: the functions that were registered, in order, each with its
name. -/
def returned (l : Library) : List Registration → List (String × Function)
  | [] => []
  | c :: cs =>
    match l.attempt c with
    | (.ok f, l) => (c.name, f) :: l.returned cs
    | (.error _, l) => l.returned cs

variable {l : Library} {c : Registration}

/-- A registration at a function type is accepted. -/
theorem attempt_of_signature {s : Signature} (h : c.ty.signature? = some s) :
    ∃ f, l.attempt c = (.ok f, ⟨l.code.add (.native c.script), l.registry.insert c.name f⟩) ∧
      f.ty = c.ty := by
  obtain ⟨name, ty, script⟩ := c
  obtain rfl := Ty.signature?_eq_some_iff.mp h
  exact ⟨_, rfl, rfl⟩

/-- A registration at any other type is refused. -/
theorem attempt_of_none (h : c.ty.signature? = none) :
    l.attempt c = (.error (.notFunction c.ty), l) := by
  have refused : l.register c.name c.ty c.script = .error (.notFunction c.ty) := by
    simp only [register, Code.native, Ty.expectFunction, h]
    rfl
  rw [attempt, refused]

/-- Installing a builtin is asking for its registration, which is always accepted. -/
theorem attempt_registration (b : Builtin) :
    l.attempt b.registration
      = (.ok (.plain ⟨l.code.routines.size, some b.name, b.signature, none⟩), l.install b) := by
  rw [attempt, Builtin.registration, register_eq_install]

end Library

/-! ## Queries -/

namespace Registry

variable {r : Registry} {history : List (String × Function)}

/-- **A registry reflects what was registered**: each query is answered from the functions that were
given back, in the order of their registration. -/
structure Reflects (r : Registry) (history : List (String × Function)) : Prop where
  /-- The overloads of a name are the functions given back for it that no later registration of that
  name has the type of. -/
  overloads : ∀ name, r.overloads name
    = ((lastOfEach key history).filter fun e => e.1 = name).map (·.2)
  distinct : ∀ name, (r.overloads name).Pairwise fun f g => f.ty ≠ g.ty
  /-- What is found at a type was registered last there. -/
  lookup? : ∀ name ty, r.lookup? name ty
    = (history.filter fun e => e.1 = name ∧ e.2.ty = ty).getLast?.map (·.2)
  /-- A name alone is enough where it was registered at one type. -/
  get? : ∀ name, (r.get? name).isSome ↔ ∃! ty, (name, ty) ∈ history.map key
  /-- What is resolved is the first of those overloads that takes the arguments. -/
  resolve? : ∀ name args, r.resolve? name args
    = (((lastOfEach key history).filter fun e => e.1 = name).map (·.2)).find?
        fun f => f.target.signature.params = args
  size : r.size = (history.map key).toFinset.card

theorem key_eq_iff {e : String × Function} {name : String} {ty : Ty} :
    key e = (name, ty) ↔ e.1 = name ∧ e.2.ty = ty := by
  rw [key, Prod.mk.injEq]

/-- A registered function takes the place of the one under its key, at the end. -/
theorem entries_insert (r : Registry) (name : String) (f : Function) :
    (r.insert name f).entries
      = (r.entries.filter fun e => key e ≠ key (name, f)) ++ [(name, f)] := by
  simp only [insert]
  congr 2
  funext e
  simp [key]

/-- The types of the overloads of a name are those that it was registered at. -/
theorem mem_types_overloads {name : String} {ty : Ty} (h : r.entries = lastOfEach key history) :
    ty ∈ (r.overloads name).map Function.ty ↔ (name, ty) ∈ history.map key := by
  rw [← mem_map_lastOfEach key, ← h]
  simp only [Registry.overloads, List.map_map, List.mem_map, List.mem_filter, decide_eq_true_eq,
    Function.comp_apply, key_eq_iff]
  constructor
  · rintro ⟨e, ⟨he, hname⟩, hty⟩
    exact ⟨e, he, hname, hty⟩
  · rintro ⟨e, he, hname, hty⟩
    exact ⟨e, ⟨he, hname⟩, hty⟩

/-- Overloads of one name are of different types. -/
theorem pairwise_overloads (name : String) (h : r.entries = lastOfEach key history) :
    (r.overloads name).Pairwise fun f g => f.ty ≠ g.ty := by
  rw [Registry.overloads, h, List.pairwise_map]
  have apart := (pairwise_lastOfEach key (l := history)).filter fun e => e.1 = name
  refine apart.imp_of_mem fun {a b} ha hb hne hty => hne ?_
  have hname : a.1 = name := of_decide_eq_true (List.mem_filter.mp ha).2
  have hname' : b.1 = name := of_decide_eq_true (List.mem_filter.mp hb).2
  exact Prod.ext (hname.trans hname'.symm) hty

theorem isSome_get? (r : Registry) (name : String) :
    (r.get? name).isSome ↔ (r.overloads name).length = 1 := by
  unfold get?
  split
  · next only h => simp [h]
  · next h =>
    refine iff_of_false (by simp) fun hone => ?_
    obtain ⟨f, hf⟩ := List.length_eq_one_iff.mp hone
    exact h f hf

/-- **A registry whose entries are the last under each key reflects the history.** -/
theorem Reflects.of_entries (h : r.entries = lastOfEach key history) : r.Reflects history where
  overloads name := by rw [Registry.overloads, h]
  distinct name := pairwise_overloads name h
  lookup? name ty := by
    rw [Registry.lookup?, Registry.overloads, List.find?_map, List.find?_filter, h]
    have found := find?_lastOfEach key (l := history) (k := (name, ty))
    simp only [key_eq_iff] at found
    rw [← found]
    congr 2
    funext e
    simp
  get? name := by
    rw [isSome_get?, ← List.length_map (f := Function.ty)]
    simp only [← mem_types_overloads h]
    have nodup : ((r.overloads name).map Function.ty).Nodup :=
      List.pairwise_map.mpr (pairwise_overloads name h)
    constructor
    · intro hone
      obtain ⟨ty, hty⟩ := List.length_eq_one_iff.mp hone
      rw [hty]
      exact ⟨ty, List.mem_singleton_self ty, fun t ht => List.mem_singleton.mp ht⟩
    · rintro ⟨ty, hty, unique⟩
      generalize (r.overloads name).map Function.ty = tys at *
      match tys, nodup with
      | [_], _ => rfl
      | a :: b :: _, nodup =>
        have same := (unique a (by simp)).trans (unique b (by simp)).symm
        simp [same] at nodup
  resolve? name args := by
    rw [Registry.resolve?, Registry.overloads, h]
    rfl
  size := by rw [Registry.size, h, length_lastOfEach]

/-! ## One more registration -/

/-- The overloads of the registered name: the new one stands behind those of other types. -/
theorem overloads_insert_self (r : Registry) (name : String) (f : Function) :
    (r.insert name f).overloads name
      = ((r.overloads name).filter fun g => g.ty ≠ f.ty) ++ [f] := by
  simp only [Registry.overloads, entries_insert, List.filter_append, List.map_append,
    List.filter_filter, List.filter_map]
  congr 1
  · congr 1
    refine List.filter_congr fun e _ => ?_
    by_cases hname : e.1 = name <;> simp [key, hname]
  · simp

/-- Another name keeps its overloads. -/
theorem overloads_insert_ne (r : Registry) {name other : String} (hne : other ≠ name)
    (f : Function) : (r.insert name f).overloads other = r.overloads other := by
  simp only [Registry.overloads, entries_insert, List.filter_append, List.map_append,
    List.filter_filter]
  rw [List.filter_cons_of_neg (by simpa using hne.symm), List.filter_nil, List.map_nil,
    List.append_nil]
  congr 1
  refine List.filter_congr fun e _ => ?_
  by_cases hname : e.1 = other
  · have apart : key e ≠ key (name, f) := fun h => hne (hname ▸ congrArg Prod.fst h)
    simp [hname, apart]
  · simp [hname]

end Registry

namespace Library

/-- A registry that reflects a history reflects it with what further registrations give back. -/
theorem entries_after {l : Library} (past : List (String × Function))
    (h : l.registry.entries = lastOfEach Registry.key past) (calls : List Registration) :
    (l.after calls).registry.entries
      = lastOfEach Registry.key (past ++ l.returned calls) := by
  induction calls generalizing l past with
  | nil => rw [returned, List.append_nil]; exact h
  | cons c cs ih =>
    cases hs : c.ty.signature? with
    | none =>
      rw [after, returned, attempt_of_none hs]
      exact ih past h
    | some s =>
      obtain ⟨f, hf, -⟩ := attempt_of_signature (l := l) hs
      have step : (l.registry.insert c.name f).entries
          = lastOfEach Registry.key (past ++ [(c.name, f)]) := by
        rw [lastOfEach_concat, ← h, Registry.entries_insert]
      rw [after, returned, hf]
      show _ = lastOfEach Registry.key (past ++ (c.name, f) :: returned _ cs)
      rw [List.append_cons]
      exact ih _ step

/-- The functions that were given back are those of the accepted registrations. -/
theorem map_key_returned (l : Library) (calls : List Registration) :
    (l.returned calls).map Registry.key
      = (calls.filter fun c => c.ty.isFunction).map fun c => (c.name, c.ty) := by
  induction calls generalizing l with
  | nil => rfl
  | cons c cs ih =>
    cases hs : c.ty.signature? with
    | none =>
      rw [returned, attempt_of_none hs, List.filter_cons_of_neg (by simp [Ty.isFunction, hs])]
      exact ih l
    | some s =>
      obtain ⟨f, hf, hty⟩ := attempt_of_signature (l := l) hs
      rw [returned, hf, List.filter_cons_of_pos (by simp [Ty.isFunction, hs])]
      simp only [List.map_cons, ih, Registry.key, hty]

/-- **What a registry holds after any registrations.** It reflects the functions that were given back,
one for each registration at a function type, a builtin being installed by its registration. One more
registration at another type than a function type is refused and changes nothing. One more of a name
leaves all queries about other names as they were, and puts its function behind the overloads of its
name at other types: arguments that one of those takes are resolved to the first of them, not to the
new function. -/
theorem after_reflects (calls : List Registration) :
    (empty.after calls).registry.Reflects (empty.returned calls) ∧
    (empty.returned calls).map Registry.key
      = ((calls.filter fun c => c.ty.isFunction).map fun c => (c.name, c.ty)) ∧
    (∀ b : Builtin, (empty.after calls).attempt b.registration
      = (.ok (.plain ⟨(empty.after calls).code.routines.size, some b.name, b.signature, none⟩),
          (empty.after calls).install b)) ∧
    ∀ c : Registration,
      (c.ty.isFunction = false →
        (empty.after calls).attempt c = (.error (.notFunction c.ty), empty.after calls)) ∧
      (∀ name, name ≠ c.name →
        let before := (empty.after calls).registry
        let later := ((empty.after calls).attempt c).2.registry
        later.overloads name = before.overloads name ∧ later.get? name = before.get? name ∧
          later.lookup? name = before.lookup? name ∧ later.resolve? name = before.resolve? name) ∧
      (∀ f, ((empty.after calls).attempt c).1 = .ok f → f.ty = c.ty ∧
        ∀ args, ((empty.after calls).attempt c).2.registry.resolve? c.name args
          = (((empty.after calls).registry.overloads c.name).find? fun g =>
              g.ty ≠ c.ty ∧ g.target.signature.params = args).or
            (if f.target.signature.params = args then some f else none)) := by
  have entries := entries_after (l := empty) [] rfl calls
  refine ⟨.of_entries entries, map_key_returned _ _, attempt_registration, fun c => ?_⟩
  cases hs : c.ty.signature? with
  | none =>
    have refused := attempt_of_none (l := empty.after calls) hs
    rw [refused]
    exact ⟨fun _ => rfl, fun _ _ => ⟨rfl, rfl, rfl, rfl⟩, fun _ h => (nomatch h)⟩
  | some s =>
    obtain ⟨f, hf, hty⟩ := attempt_of_signature (l := empty.after calls) hs
    rw [hf]
    refine ⟨fun h => by simp [Ty.isFunction, hs] at h, fun name hne => ?_, fun g hg => ?_⟩
    · have same := Registry.overloads_insert_ne (empty.after calls).registry hne f
      refine ⟨same, ?_, ?_, ?_⟩
      · simp only [Registry.get?, same]
      · funext ty
        simp only [Registry.lookup?, same]
      · funext args
        simp only [Registry.resolve?, same]
    · cases hg
      refine ⟨hty, fun args => ?_⟩
      simp only [Registry.resolve?, Registry.overloads_insert_self, List.find?_append,
        List.find?_filter, hty, Signature.accepts]
      congr 1
      · congr 1
        funext g
        simp
      · by_cases h : f.target.signature.params = args <;> simp [h]

end Library

end TypedEval
