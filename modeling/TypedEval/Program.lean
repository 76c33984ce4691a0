import TypedEval.Call
import TypedEval.Builtin.Registry

/-!
# Programs

A program is a node over the layout of its frame. Each execution has a fresh frame; an execution
that halts ends only itself, and the program may be executed again.
-/

namespace TypedEval

/-- **A program**: a body and the layout of the frame that it runs in. -/
structure Program where
  layout : Layout
  body : AnyNode

namespace Program

/-- The type of the result. -/
def ty (p : Program) : Ty := p.body.ty

/-- **Executes a program** in a fresh frame, nesting calls at most `depth` deep. -/
def execute (p : Program) (code : Code) (depth : Nat) : Run Store Value := fun s =>
  match code.eval depth p.body ⟨.allocate p.layout, s⟩ with
  | (r, a) => (r, a.store)

end Program

end TypedEval
