import TypedEval.Proofs.Termination.Calls

/-!
# Programs without recursive bindings

A program **without recursion** has no recursive binding in its tree nor in the bodies that it
reaches, and the functions that it starts with are plain: no self-references, in closures that are
there and on no cycle. Captures copy values and rebinding a slot changes no closure, so such a program
cannot tie a knot while it runs. Its evaluation ends (`Code.eval_terminates`).

The proof goes along the places that are reached: a place is reducible if the places that it names
are, by the laws about bodies and calls, and since none is on a cycle, all of them are.
-/

namespace TypedEval

/-! ## The condition -/

/-- **A plain function**: admitted, with the standard builtins as host functions, no self-reference,
and with its closure in the store if it has one. -/
structure Code.Plain (code : Code) (s : Store) (f : Function) : Prop where
  admitted : code.Admits code.standardHosts f
  shared : f.isSelfReference = false
  present : ∀ id, f.closureId? = some id → id < s.closures.size

/-- **A program without recursion**, over the layout of the frame that it starts in. -/
structure Code.WithoutRecursion (code : Code) (layout : Layout) (n : AnyNode) (a : Activation) :
    Prop where
  tree : n.node.Accepted code (code.Plain a.store) layout
  /-- No recursive binding in the tree. -/
  unbound : n.node.All (· ≠ .recursion)
  layout : a.frame.layout = layout
  frame : a.frame.Of (code.Plain a.store)
  /-- The same of the bodies that are reached. -/
  bodies : ∀ id body, code.Reaches n a (.code id) → code.routines[id]? = some (.user body) →
    body.node.node.Accepted code (code.Plain a.store) body.frame ∧
      body.node.node.All (· ≠ .recursion)
  /-- The same of the closures that are reached. -/
  closures : ∀ id closure, code.Reaches n a (.closure id) → a.store.closures[id]? = some closure →
    closure.Of (code.Plain a.store)
  /-- No place names itself, also not through others. -/
  acyclic : ∀ p, code.Reaches n a p → ¬ Relation.TransGen (code.Mentions a.store) p p

/-! ## Reducible places -/

/-- **A place is reducible**: what may run at a code number is, and what a closure holds. -/
def Place.Reducible (code : Code) (base : Store) : Place → Prop
  | .code id => ∀ target : Target, target.id = id →
      code.Admits code.standardHosts (.plain target) → target.Reducible code base
  | .closure id => ∀ frame, base.closures[id]? = some frame →
      frame.Of (Function.Reducible code base)

section

variable {code : Code} {base : Store}

/-- A plain function is reducible if the places that it names are. -/
theorem Code.Plain.reducible {f : Function} (hf : code.Plain base f)
    (h : ∀ p, f.Names p → p.Reducible code base) : f.Reducible code base := by
  refine h (.code f.target.id) rfl f.target rfl hf.admitted base f (.refl base) rfl hf.shared ?_
  intro id hid
  have there := Array.getElem?_eq_getElem (hf.present id hid)
  exact ⟨_, there, h (.closure id) hid _ there⟩

/-- The items of an accepted tree are reducible if the places that they name are. -/
theorem Node.Accepted.items_reducible {layout : Layout} {family : Family} {n : Node family}
    (hn : n.Accepted code (code.Plain base) layout) (unbound : n.All (· ≠ .recursion))
    (h : ∀ p, n.Has (Item.Names p) → p.Reducible code base) : n.All (Item.Reducible code base) := by
  have named := Node.all_of_has h
  refine ((Node.Accepted.items n hn).and (unbound.and named)).imp ?_
  rintro item ⟨accepted, unbound, named⟩
  cases item with
  | constant v =>
    have accepted : v.WellTyped (code.Plain base) := accepted
    exact accepted.of_contains fun f hf plain => plain.reducible fun p hp => named p ⟨f, hf, hp⟩
  | definition target =>
    obtain ⟨declared, layout, hlayout⟩ := accepted
    exact named (.code target.id) rfl target rfl (declared.admits hlayout _ none)
  | recursion => exact absurd rfl unbound

/-- **Every place that is reached is reducible**, when there is no recursion. -/
theorem Code.WithoutRecursion.places {layout : Layout} {n : AnyNode} {a : Activation}
    (h : code.WithoutRecursion layout n a) {p : Place} (hp : code.Reaches n a p) :
    p.Reducible code a.store := by
  induction Code.acc_of_acyclic h.acyclic hp with
  | intro p _ ih =>
    cases p with
    | code id =>
      rintro target rfl hadmits
      have hbodies : ∀ body, code.routine? target = some (.user body) →
          body.node.node.Accepted code (code.Plain a.store) body.frame ∧
            body.node.node.All (Item.Reducible code a.store) := by
        intro body hbody
        obtain ⟨accepted, unbound⟩ := h.bodies target.id body hp hbody
        refine ⟨accepted, accepted.items_reducible unbound fun q hq => ?_⟩
        have mentions : code.Mentions a.store (.code target.id) q := .body hbody hq
        exact ih q mentions (hp.onward mentions)
      exact Code.target_reducible hadmits hbodies
    | closure id =>
      intro frame hframe
      refine (h.closures id frame hp hframe).of_contains fun f hf plain => plain.reducible ?_
      intro q hq
      have mentions : code.Mentions a.store (.closure id) q := .closure hframe hf hq
      exact ih q mentions (hp.onward mentions)

end

/-! ## Evaluations -/

/-- **Recursion enters only through recursive bindings.** The evaluation of a program without
recursion ends: from some depth of calls on it does not exhaust its depth, and it is one and the same,
in its value or fault, its frame and its store, however deep calls may nest. -/
theorem Code.eval_terminates (code : Code) (layout : Layout) (n : AnyNode) (a : Activation)
    (h : code.WithoutRecursion layout n a) :
    ∃ depth, (code.eval depth n a).1 ≠ .error .exhausted ∧
      ∀ more, depth ≤ more → code.eval more n a = code.eval depth n a := by
  have hitems : n.node.All (Item.Reducible code a.store) :=
    h.tree.items_reducible h.unbound fun p hp => h.places (.tree hp)
  have hframe : a.frame.Of (Function.Reducible code a.store) :=
    h.frame.of_contains fun f hf plain => plain.reducible fun p hp => h.places (.frame hf hp)
  obtain ⟨depth, same, obeys⟩ := AnyNode.eval_ends n h.tree hitems ⟨.refl _, h.layout, hframe⟩
  refine ⟨depth, fun exhausted => ?_, same⟩
  have ends := obeys.ends
  rw [show (n.eval (code.call depth) a).1 = .error .exhausted from exhausted] at ends
  exact ends rfl

/-! ## Functions that are held, rebound and captured

`add` adds what its closure holds, and `twice` calls the function in its closure two times. A constant
function has `twice` as its code and a closure that holds another function, with a closure of its own.
It is bound to a slot, captured from there into a new function that is bound to the same slot, and
that one is called back by a builtin. -/

namespace Twice

def signature : Signature := ⟨[.int], .int⟩

/-- The layout of a frame with one function. -/
def one : Layout := ⟨#[⟨"f", signature.ty⟩]⟩

def add : Target := ⟨0, some "add", signature, some ⟨#[⟨"k", .int⟩]⟩⟩

def twice : Target := ⟨1, some "twice", signature, some one⟩

def map : Target := ⟨2, some "map", ⟨[.array .int, signature.ty], .array .int⟩, none⟩

/-- `k + n`. -/
def addBody : Body where
  frame := ⟨#[⟨"k", .int⟩, ⟨"n", .int⟩]⟩
  params := [1]
  disclosure := [⟨0, 0⟩]
  node := ⟨.int, .arithInt .add (.read 0 .int) (.read 1 .int)⟩

/-- `f (f n)`. -/
def twiceBody : Body where
  frame := ⟨#[⟨"f", signature.ty⟩, ⟨"n", .int⟩]⟩
  params := [1]
  disclosure := [⟨0, 0⟩]
  node := ⟨.int,
    .call (.read 0 signature.ty)
      (.cons .int (.call (.read 0 signature.ty) (.cons .int (.read 1 .int) .nil) .int) .nil) .int⟩

def code : Code := ⟨#[.user addBody, .user twiceBody, .native Builtin.map]⟩

/-- `add` with `k = 10` in closure 0. -/
def addTen : Function := ⟨add, some (.shared 0)⟩

/-- `twice` with `f = addTen` in closure 1. -/
def addTwenty : Function := ⟨twice, some (.shared 1)⟩

def start : Activation where
  frame := .allocate one
  store := ⟨#[⟨#[⟨⟨"k", .int⟩, .int 10⟩]⟩,
    ⟨#[⟨⟨"f", signature.ty⟩, .reference (.function addTen)⟩]⟩], 0⟩

/-- `let f = addTwenty, f = twice f in map([1, 2], f)`. -/
def tree : AnyNode :=
  ⟨.reference,
    .block
      (.bind .function 0 (.function addTwenty)
        (.bind .function 0 (.define twice ⟨one, [⟨0, 0⟩]⟩) .nil))
      (.call (.function (.plain map))
        (.cons .reference (.array .int (.cons .int (.int 1) (.cons .int (.int 2) .nil)))
          (.cons .function (.read 0 signature.ty) .nil)) (.array .int))⟩

/-- The elements of an array of integers. -/
def ints? : Value → Option (Array Int64)
  | .array ⟨_, _, .ints items⟩ => some items
  | _ => none

theorem map_standard : code.standardHosts 2 map.signature :=
  ⟨⟨"map", map.signature, Builtin.map⟩,
    Builtin.map_isStandard (by simp [Builtin.sequences])
      (by simp [Builtin.results, signature]), rfl, rfl⟩

theorem map_plain : code.Plain start.store (.plain map) := ⟨⟨rfl, map_standard⟩, rfl, nofun⟩

theorem addTen_plain : code.Plain start.store addTen :=
  ⟨rfl, rfl, fun _ hid => by cases hid; decide⟩

theorem addTwenty_plain : code.Plain start.store addTwenty :=
  ⟨rfl, rfl, fun _ hid => by cases hid; decide⟩

theorem bodies {id : Nat} {body : Body} (h : code.routines[id]? = some (.user body)) :
    body = addBody ∨ body = twiceBody := by
  match id with
  | 0 => cases h; exact .inl rfl
  | 1 => cases h; exact .inr rfl
  | 2 => cases h
  | _ + 3 => cases h

theorem closures {id : Nat} {closure : Frame} (h : start.store.closures[id]? = some closure) :
    closure.Of (code.Plain start.store) := by
  intro i s hs
  match id with
  | 0 =>
    cases h
    match i with
    | 0 => cases hs; rfl
    | _ + 1 => cases hs
  | 1 =>
    cases h
    match i with
    | 0 => cases hs; exact ⟨rfl, rfl, .function addTen_plain⟩
    | _ + 1 => cases hs
  | _ + 2 => cases h

/-- The bodies name nothing, and closure 1 names closure 0. -/
def rank : Place → Nat
  | .code _ => 0
  | .closure id => id + 1

theorem function_of_contained {id : Nat} {closure : Frame} {f : Function}
    (h : start.store.closures[id]? = some closure) (hf : closure.Contains f) :
    id = 1 ∧ f = addTen := by
  obtain ⟨i, s, v, hs, hv, hf⟩ := hf
  match id with
  | 0 =>
    cases h
    match i with
    | 0 => cases hs; cases hv; cases hf
    | _ + 1 => cases hs
  | 1 =>
    cases h
    match i with
    | 0 => cases hs; cases hv; cases hf; exact ⟨rfl, rfl⟩
    | _ + 1 => cases hs
  | _ + 2 => cases h

theorem rank_lt {p q : Place} (h : code.Mentions start.store p q) : rank q < rank p := by
  cases h with
  | body hbody h =>
    obtain rfl | rfl := bodies hbody
    · exact (h ⟨trivial, trivial⟩).elim
    · exact (h ⟨trivial, ⟨trivial, trivial, trivial⟩, trivial⟩).elim
  | closure hframe hf h =>
    obtain ⟨rfl, rfl⟩ := function_of_contained hframe hf
    cases q with
    | code id => exact Nat.succ_pos _
    | closure id => cases h; decide

theorem withoutRecursion : code.WithoutRecursion one tree start where
  tree := ⟨⟨rfl, addTwenty_plain, rfl, ⟨rfl, one, rfl, rfl⟩, trivial⟩, rfl, map_plain,
    ⟨rfl, trivial, trivial, trivial⟩, rfl, trivial⟩
  unbound := ⟨⟨nofun, nofun, trivial⟩, nofun, ⟨trivial, trivial, trivial⟩, trivial, trivial⟩
  layout := Frame.layout_allocate _
  frame := .allocate _
  bodies := by
    intro id body _ hbody
    obtain rfl | rfl := bodies hbody
    · exact ⟨⟨rfl, rfl⟩, trivial, trivial⟩
    · exact ⟨⟨rfl, rfl, ⟨rfl, rfl, rfl, trivial⟩, trivial⟩,
        trivial, ⟨trivial, trivial, trivial⟩, trivial⟩
  closures := fun _ _ _ h => closures h
  acyclic := fun p _ => Code.acyclic_of_rank rank (fun _ _ => rank_lt) p

end Twice

/-- The function that is called back adds twenty twice, and no depth from some on makes a
difference. -/
theorem twice_terminates :
    (Twice.code.eval 9 Twice.tree Twice.start).1.toOption.bind Twice.ints? = some #[41, 42] ∧
    Twice.code.WithoutRecursion Twice.one Twice.tree Twice.start ∧
    ∃ depth, (Twice.code.eval depth Twice.tree Twice.start).1 ≠ .error .exhausted ∧
      ∀ more, depth ≤ more →
        Twice.code.eval more Twice.tree Twice.start = Twice.code.eval depth Twice.tree Twice.start :=
  ⟨by decide +kernel, Twice.withoutRecursion,
    Code.eval_terminates Twice.code Twice.one Twice.tree Twice.start Twice.withoutRecursion⟩

end TypedEval
