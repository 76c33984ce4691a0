import TypedEval.Proofs.Builtin.Callbacks
import TypedEval.Proofs.Closure.Snapshot
import TypedEval.Proofs.History.Backtrace
import TypedEval.Proofs.Renaming.Closed

/-!
# Programs may be executed again

Executions share one store, which only grows. The law (`Program.execute_again`): at any two moments of
a history of executions, however those ended, a program does the same. It halts with the same fault and
trace, exhausts the same depths, or returns the same value under new numbers, where only the closures
and storages that the execution made itself have other numbers.

Both executions are compared with the one in the store that the program was built in, and something is
asked of that store alone: it is closed, as every store is that executions come to
(`Store.Reached.closed`). Moving all later numbers up leaves such a store alone, and no history changes
anything in it, since recursive bindings bind definitions. The two renamings that this gives make up
the one between the executions.
-/

namespace TypedEval

/-! ## Values without functions -/

/-- A value without any function, also in the elements of arrays. -/
def Value.WithoutFunctions (v : Value) : Prop := v.Holds fun _ => False

/-- What is left of a value apart from the numbers of its storages, which no program can see. -/
def Value.withoutStorages (v : Value) : Value := v.rename ⟨id, fun _ => 0⟩

/-- Without functions, a value is the same under new numbers but for those of its storages. -/
theorem Value.WithoutFunctions.rename {v : Value} (hv : v.WithoutFunctions) (ρ : Relabeling) :
    (v.rename ρ).withoutStorages = v.withoutStorages := by
  unfold withoutStorages
  rw [v.rename_rename]
  exact rename_congr (hv.imp fun _ h => h.elim) fun _ => rfl

/-! ## Moving numbers up -/

/-- Moving up twice is moving up once. -/
theorem moveUp_moveUp {n m k i : Nat} (hnm : n ≤ m) (hmk : m ≤ k) :
    moveUp m k (moveUp n m i) = moveUp n k i := by
  unfold moveUp
  split <;> split <;> omega

namespace Relabeling

/-- **The relabeling that moves numbers up** from the next ones of `s` to the next ones of `t`. -/
def shift (s t : Store) : Relabeling :=
  ⟨moveUp s.closures.size t.closures.size, moveUp s.storages t.storages⟩

theorem shift_oneToOne (s t : Store) : (shift s t).OneToOne := ⟨moveUp_injective, moveUp_injective⟩

theorem shift_fixes (s t : Store) : (shift s t).Fixes s :=
  ⟨fun _ => moveUp_of_lt, fun _ => moveUp_of_lt⟩

theorem shift_closures_of_le {s t : Store} {i : Nat} (h : s.closures.size ≤ i) :
    (shift s t).closures i = i + (t.closures.size - s.closures.size) :=
  moveUp_of_le h

theorem shift_storages_of_le {s t : Store} {i : Nat} (h : s.storages ≤ i) :
    (shift s t).storages i = i + (t.storages - s.storages) :=
  moveUp_of_le h

end Relabeling

/-- **A later store**: the closures of the first are there unchanged, and no number is given out
again. -/
structure Store.Later (s t : Store) : Prop where
  closures : s.Extends t
  storages : s.storages ≤ t.storages

section

variable {s t u : Store}

open Relabeling

theorem Store.Later.refl (s : Store) : s.Later s := ⟨.refl s, Nat.le_refl _⟩

theorem Store.Later.trans (hst : s.Later t) (htu : t.Later u) : s.Later u :=
  ⟨hst.closures.trans htu.closures, Nat.le_trans hst.storages htu.storages⟩

theorem Store.Later.shift_closures (hst : s.Later t) (htu : t.Later u) (i : Nat) :
    (shift t u).closures ((shift s t).closures i) = (shift s u).closures i :=
  moveUp_moveUp hst.closures.size_le htu.closures.size_le

theorem Store.Later.shift_storages (hst : s.Later t) (htu : t.Later u) (i : Nat) :
    (shift t u).storages ((shift s t).storages i) = (shift s u).storages i :=
  moveUp_moveUp hst.storages htu.storages

theorem Store.Later.shift_andThen (hst : s.Later t) (htu : t.Later u) :
    (shift s t).andThen (shift t u) = shift s u := by
  simp only [andThen, hst.shift_closures htu, hst.shift_storages htu]

/-- **A closed store is its own renaming in every later store.** -/
theorem Store.Closed.shift (hs : s.Closed) (hst : s.Later t) (last : Store) :
    s.Renamed (shift s t) t last := by
  have grown := hst.closures.size_le
  have numbered := hst.storages
  refine hs.renamed hst.closures (shift_fixes s t) (fun i hi => ?_) (fun k _ => ?_) fun k _ => ?_
  · rw [shift_closures_of_le hi]
    omega
  · rw [shift_closures_of_le (Nat.le_add_right _ k)]
    omega
  · rw [shift_storages_of_le (Nat.le_add_right _ k)]
    omega

end

/-! ## Histories -/

/-- **An execution**: a program, the code that it may call, and the depth that it is given. -/
structure Execution where
  program : Program
  code : Code
  depth : Nat

namespace Execution

/-- What an execution does to the store that it finds. -/
def run (e : Execution) : Run Store Value := e.program.execute e.code e.depth

/-- **Every recursive binding binds a definition**, in the program and in the code that it may call. -/
structure DefinesRecursion (e : Execution) : Prop where
  program : e.program.body.node.DefinesRecursion
  code : e.code.DefinesRecursion

/-- However an execution ends, it leaves a later store. -/
theorem DefinesRecursion.later {e : Execution} (he : e.DefinesRecursion) (s : Store) :
    s.Later (e.run s).2 := by
  have evaluated : (e.program.body.eval (e.code.call e.depth)).Keeps :=
    .bind (Node.eval_keeps (Code.call_keeps he.code e.depth) e.program.body.node he.program)
      fun _ => .pure _
  exact ⟨evaluated ⟨.allocate e.program.layout, s⟩, (e.program.upTo_execute e.code e.depth s).storages⟩

end Execution

/-- **The store after a history**: each execution finds the store that the one before it left, whether
that one returned or halted. -/
def Store.after (s : Store) (history : List Execution) : Store :=
  history.foldl (fun s e => (e.run s).2) s

theorem Store.later_after {history : List Execution} (h : ∀ e ∈ history, e.DefinesRecursion)
    (s : Store) : s.Later (s.after history) := by
  induction history generalizing s with
  | nil => exact .refl s
  | cons e rest ih =>
    obtain ⟨he, hrest⟩ := List.forall_mem_cons.mp h
    exact (he.later s).trans (ih hrest (e.run s).2)

/-! ## The law -/

section

variable {p : Program} {code : Code} {s : Store} (hs : s.Closed) (hp : p.BuiltIn code s)

include hs hp

/-- **An execution in a later store** follows the one in the store that the program was built in. -/
theorem Program.execute_later {t : Store} (hst : s.Later t) (depth : Nat) :
    (p.execute code depth t).1 = (p.execute code depth s).1.map (Value.rename (.shift s t)) ∧
      (p.execute code depth s).2.Renamed (.shift s t) (p.execute code depth t).2
        (p.execute code depth s).2 :=
  hp.execute_follows (Relabeling.shift_oneToOne s t) (Relabeling.shift_fixes s t) depth
    (hs.shift hst _)

/-- The results of two executions are renamed to each other. -/
theorem Program.execute_renamed {t u : Store} (hst : s.Later t) (htu : t.Later u) (depth : Nat) :
    (p.execute code depth u).1 = (p.execute code depth t).1.map (Value.rename (.shift t u)) := by
  rw [(execute_later hs hp hst depth).1,
    (execute_later hs hp (hst.trans htu) depth).1, ← hst.shift_andThen htu]
  cases (p.execute code depth s).1 with
  | error h => rfl
  | ok v => exact congrArg Except.ok (v.rename_rename _ _).symm

/-- The closures that two executions made are renamed to each other. -/
theorem Program.closures_execute_renamed {t u : Store} (hst : s.Later t) (htu : t.Later u)
    (depth : Nat) {i : Nat} (hi : t.closures.size ≤ i) :
    (p.execute code depth u).2.closures[(Relabeling.shift t u).closures i]? =
      (p.execute code depth t).2.closures[i]?.map (Frame.rename (.shift t u)) := by
  have made := (execute_later hs hp hst depth).2.closures
  have madeAgain := (execute_later hs hp (hst.trans htu) depth).2.closures
  have grown := hst.closures.size_le
  -- The closure has the number `i` in place of `j`, which it has in the first store.
  obtain ⟨j, rfl⟩ : ∃ j, i = (Relabeling.shift s t).closures j := by
    refine ⟨i - (t.closures.size - s.closures.size), ?_⟩
    rw [Relabeling.shift_closures_of_le (by omega)]
    omega
  rw [hst.shift_closures htu j, madeAgain j, made j, Option.map_map]
  congr 1
  funext frame
  rw [← hst.shift_andThen htu, ← frame.rename_rename]
  rfl

end

/-- **Programs may be executed again.** Let a program and its code be built in a closed store, and take
two moments of a history of executions: of any programs whose recursive bindings bind definitions, this
one among them, whether they returned or halted. Executed at both moments, the program does the same. It
exhausts the same depths, so it diverges at both or at neither; it halts with the same fault and trace;
or it returns the same value under new numbers, of the same type. No two numbers become one. The
closures of the first moment are there at the second, with the same numbers and contents; those that
the executions made have the same contents under new numbers. A result without functions is the same at
both moments, but for the numbers of its storages. -/
theorem Program.execute_again (p : Program) (code : Code) (s : Store)
    (before between : List Execution) (hs : s.Closed) (hp : p.BuiltIn code s)
    (hbefore : ∀ e ∈ before, e.DefinesRecursion) (hbetween : ∀ e ∈ between, e.DefinesRecursion) :
    let t := s.after before
    let u := t.after between
    let r := Relabeling.shift t u
    r.OneToOne ∧
    (∀ i < t.closures.size, r.closures i = i ∧ u.closures[i]? = t.closures[i]?) ∧
    ((∀ depth, (p.execute code depth t).1 = .error .exhausted) ↔
      ∀ depth, (p.execute code depth u).1 = .error .exhausted) ∧
    ∀ depth,
      (∀ h, (p.execute code depth t).1 = .error h ↔ (p.execute code depth u).1 = .error h) ∧
      (∀ v, (p.execute code depth t).1 = .ok v →
        (p.execute code depth u).1 = .ok (v.rename r) ∧ (v.rename r).ty = v.ty ∧
          (v.WithoutFunctions → (v.rename r).withoutStorages = v.withoutStorages)) ∧
      ∀ i, t.closures.size ≤ i →
        (p.execute code depth u).2.closures[r.closures i]? =
          (p.execute code depth t).2.closures[i]?.map (Frame.rename r) := by
  intro t u r
  have hst : s.Later t := s.later_after hbefore
  have htu : t.Later u := t.later_after hbetween
  have again (depth : Nat) := execute_renamed hs hp hst htu depth
  have halts (depth : Nat) (h : Halt) :
      (p.execute code depth t).1 = .error h ↔ (p.execute code depth u).1 = .error h := by
    rw [again depth]
    cases (p.execute code depth t).1 with
    | error e => exact Iff.rfl
    | ok v => exact ⟨fun h => (nomatch h), fun h => (nomatch h)⟩
  refine ⟨Relabeling.shift_oneToOne t u, fun i hi => ⟨(Relabeling.shift_fixes t u).closures i hi, ?_⟩,
    forall_congr' fun depth => halts depth .exhausted, fun depth => ⟨halts depth, ?_, ?_⟩⟩
  · rw [Array.getElem?_eq_getElem hi]
    exact htu.closures i _ (Array.getElem?_eq_getElem hi)
  · intro v hv
    refine ⟨?_, v.ty_rename r, fun hfree => hfree.rename r⟩
    rw [again depth, hv]
    rfl
  · exact fun i hi => closures_execute_renamed hs hp hst htu depth hi

/-! A program that returns a function made by an earlier execution beside one that it makes itself. -/

namespace Pair

/-- `let rec f = countdown in f`. -/
def countdown : Program where
  layout := Countdown.layout
  body := Countdown.returned

/-- `let rec f = countdown in [g, f]`, with a constant countdown `g`. -/
def program : Program where
  layout := Countdown.layout
  body := ⟨.reference,
    .block (.bindRec 0 (.define Countdown.target ⟨Countdown.closure, []⟩) 0 .nil)
      (.array Countdown.signature.ty (.cons .function (.function Countdowns.countdown)
        (.cons .function (.read 0 Countdown.signature.ty) .nil)))⟩

def execution : Execution := ⟨program, Countdowns.code, 1⟩

/-- An execution that fails with a division by zero. -/
def failing : Execution := ⟨⟨.empty, Reciprocals.tree⟩, Reciprocals.code, 2⟩

/-- The closures of the functions in an array. -/
def closures? : Value → Option (List (Option Nat))
  | .array ⟨_, _, .boxed items⟩ =>
    some (items.toList.map fun
      | .function f => f.closureId?
      | _ => none)
  | _ => none

theorem code_isOpaque : Countdowns.code.IsOpaque := by
  intro script h
  have isMap : script = Builtin.map := by simpa [Countdowns.code] using h
  rw [isMap]
  exact Builtin.standard_opaque Countdowns.map_standard

theorem code_within (s : Store) : Countdowns.code.All (Item.Within s) := by
  intro b hb
  cases Countdowns.body_of_mem hb
  exact ⟨⟨trivial, trivial⟩, trivial, trivial, ⟨trivial, trivial⟩, trivial⟩

/-- The store with the countdown is what `let rec f = countdown in f` leaves. -/
theorem tied_reached : Countdowns.tied.Reached := by
  have bound : countdown.execute Countdowns.code 0 ⟨#[], 1⟩ =
      (.ok (.function Countdowns.countdown), Countdowns.tied) := by cbv
  have left : (countdown.execute Countdowns.code 0 ⟨#[], 1⟩).2 = Countdowns.tied :=
    congrArg Prod.snd bound
  rw [← left]
  exact .execute 0 (.newStorage .empty)
    ⟨⟨⟨trivial, trivial, trivial⟩, trivial⟩, code_within _, code_isOpaque⟩

theorem program_builtIn : program.BuiltIn Countdowns.code Countdowns.tied where
  body := ⟨⟨trivial, trivial, trivial⟩, .function fun _ h => by cases h; exact Nat.one_pos, trivial,
    trivial⟩
  functions := code_within _
  hosts := code_isOpaque

theorem execution_definesRecursion : execution.DefinesRecursion where
  program := ⟨⟨⟨Countdown.target, _, rfl⟩, trivial⟩, trivial, trivial, trivial⟩
  code := Countdowns.code_definesRecursion

theorem failing_definesRecursion : failing.DefinesRecursion where
  program := ⟨trivial, ⟨trivial, trivial, trivial⟩, trivial, trivial⟩
  code b hb := by
    have isBody : b = Reciprocals.body := by simpa [failing, Reciprocals.code] using hb
    rw [isBody]
    exact ⟨trivial, trivial⟩

end Pair

/-- Executed again after another program has failed, the program returns the constant as it is, and a
function with a closure of its own. -/
theorem pair_again :
    let t := Countdowns.tied.after [Pair.failing]
    let u := t.after [Pair.execution, Pair.failing]
    let first := (Pair.program.execute Countdowns.code 1 t).1
    let second := (Pair.program.execute Countdowns.code 1 u).1
    first.toOption.bind Pair.closures? = some [some 0, some 1] ∧
    second.toOption.bind Pair.closures? = some [some 0, some 2] ∧
    ∀ v, first = .ok v → second = .ok (v.rename (.shift t u)) := by
  intro t u first second
  refine ⟨by decide +kernel, by decide +kernel, fun v hv => ?_⟩
  have failed := List.forall_mem_singleton.mpr Pair.failing_definesRecursion
  have again := Program.execute_again Pair.program Countdowns.code Countdowns.tied [Pair.failing]
    [Pair.execution, Pair.failing] Pair.tied_reached.closed Pair.program_builtIn failed
    (List.forall_mem_cons.mpr ⟨Pair.execution_definesRecursion, failed⟩)
  exact ((again.2.2.2 1).2.1 v hv).1

end TypedEval
