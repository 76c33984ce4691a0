import TypedEval.Code

/-!
# Where recursion is bound

A recursive binding puts a function into its own closure. That is meant for a function definition,
whose closure is made by the binding itself. `DefinesRecursion` says of a tree, and of the bodies in
a code table, that no recursive binding binds anything else; the constructors do not ask for it.
-/

namespace TypedEval

/-- A node that is a function definition. -/
def Node.IsDefinition (n : Node .function) : Prop :=
  ∃ target capture, n = .define target capture

mutual

/-- **Every recursive binding in a node binds a function definition.** -/
def Node.DefinesRecursion : {family : Family} → Node family → Prop
  | _, .bool _ | _, .int _ | _, .float _ | _, .function _ | _, .constant _ | _, .read _ _
  | _, .define _ _ => True
  | _, .not a => a.DefinesRecursion
  | _, .negateInt a => a.DefinesRecursion
  | _, .negateFloat a => a.DefinesRecursion
  | _, .logic _ a b => a.DefinesRecursion ∧ b.DefinesRecursion
  | _, .compareInt _ a b => a.DefinesRecursion ∧ b.DefinesRecursion
  | _, .compareFloat _ a b => a.DefinesRecursion ∧ b.DefinesRecursion
  | _, .arithInt _ a b => a.DefinesRecursion ∧ b.DefinesRecursion
  | _, .arithFloat _ a b => a.DefinesRecursion ∧ b.DefinesRecursion
  | _, .cond test a b => test.DefinesRecursion ∧ a.DefinesRecursion ∧ b.DefinesRecursion
  | _, .block bindings body => bindings.DefinesRecursion ∧ body.DefinesRecursion
  | _, .call callee args _ => callee.DefinesRecursion ∧ args.DefinesRecursion
  | _, .index seq i _ => seq.DefinesRecursion ∧ i.DefinesRecursion
  | _, .slice seq slicer => seq.DefinesRecursion ∧ slicer.DefinesRecursion
  | _, .array _ items => items.DefinesRecursion
  | _, .intRange first last step =>
    first.DefinesRecursion ∧ last.DefinesRecursion ∧ step.DefinesRecursion
  | _, .floatRange first last step =>
    first.DefinesRecursion ∧ last.DefinesRecursion ∧ step.DefinesRecursion

/-- The same of every node of a list. -/
def Nodes.DefinesRecursion : Nodes → Prop
  | .nil => True
  | .cons _ n ns => n.DefinesRecursion ∧ ns.DefinesRecursion

/-- The same of a part of a range. -/
def Part.DefinesRecursion : {family : Family} → Part family → Prop
  | _, .none => True
  | _, .some n => n.DefinesRecursion

/-- The same of every binding of a block. -/
def Bindings.DefinesRecursion : Bindings → Prop
  | .nil => True
  | .bind _ _ n rest => n.DefinesRecursion ∧ rest.DefinesRecursion
  | .bindRec _ n _ rest => n.IsDefinition ∧ rest.DefinesRecursion

end

/-- The same of every body in a code table. -/
def Code.DefinesRecursion (code : Code) : Prop :=
  ∀ body, .user body ∈ code.routines → body.node.node.DefinesRecursion

/-! ## A recursive function

The smallest use of a recursive binding: a function that calls itself with one less until it reaches
zero. Its closure holds nothing but the function. -/

namespace Countdown

/-- The type of the function, and of the slots that hold it. -/
def signature : Signature := ⟨[.int], .int⟩

def closure : Layout := ⟨#[⟨"f", signature.ty⟩]⟩

def target : Target := ⟨0, some "f", signature, some closure⟩

/-- `if n ≤ 0 then 0 else f (n - 1)`, with the function in slot 0 and `n` in slot 1. -/
def body : Body where
  frame := ⟨#[⟨"f", signature.ty⟩, ⟨"n", .int⟩]⟩
  params := [1]
  disclosure := [⟨0, 0⟩]
  node := ⟨.int,
    .cond (.compareInt .le (.read 1 .int) (.int 0)) (.int 0)
      (.call (.read 0 signature.ty)
        (.cons .int (.arithInt .sub (.read 1 .int) (.int 1)) .nil) .int)⟩

def code : Code := ⟨#[.user body]⟩

/-- The frame that the function is bound in. -/
def layout : Layout := ⟨#[⟨"f", signature.ty⟩]⟩

/-- Binds the function and calls it with 3. -/
def tree : AnyNode :=
  ⟨.int,
    .block (.bindRec 0 (.define target ⟨closure, []⟩) 0 .nil)
      (.call (.read 0 signature.ty) (.cons .int (.int 3) .nil) .int)⟩

/-- Binds the function and returns it. -/
def returned : AnyNode :=
  ⟨.function, .block (.bindRec 0 (.define target ⟨closure, []⟩) 0 .nil) (.read 0 signature.ty)⟩

theorem code_definesRecursion : code.DefinesRecursion := by
  intro b hb
  simp only [code, List.mem_toArray, List.mem_singleton, Routine.user.injEq] at hb
  subst hb
  simp [body, Node.DefinesRecursion, Nodes.DefinesRecursion]

theorem tree_definesRecursion : tree.node.DefinesRecursion :=
  ⟨⟨⟨target, _, rfl⟩, trivial⟩, trivial, trivial, trivial⟩

end Countdown

end TypedEval
