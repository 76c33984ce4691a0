import TypedEval.Code
import TypedEval.Builtin.Math
import TypedEval.Builtin.Sequence

/-!
# The registry of builtins

Builtins are registered under a name and a function type. One name may have overloads of different
types; registering a name and type again replaces the earlier entry and moves it to the end. An
overload is found by its exact type, or by the types of the arguments, in which case the first one
in registration order that accepts them is taken.

The standard library has the numeric builtins and, for arrays of booleans, integers and floats and
for ranges of integers and floats, the sequence builtins.
-/

namespace TypedEval

/-- **The builtins that are registered**, in order. -/
structure Registry where
  entries : List (String × Function)
  deriving Inhabited

namespace Registry

/-- The registry without builtins. -/
def empty : Registry := ⟨[]⟩

/-- Adds a function under a name, in place of one of equal type. -/
def insert (r : Registry) (name : String) (f : Function) : Registry :=
  ⟨(r.entries.filter fun (n, g) => !(n = name && g.ty = f.ty)) ++ [(name, f)]⟩

/-- The overloads of a name, in registration order. -/
def overloads (r : Registry) (name : String) : List Function :=
  (r.entries.filter fun (n, _) => n = name).map (·.2)

/-- The only builtin of a name. -/
def get? (r : Registry) (name : String) : Option Function :=
  match r.overloads name with
  | [only] => some only
  | _ => none

/-- The overload of a name with exactly this type. -/
def lookup? (r : Registry) (name : String) (ty : Ty) : Option Function :=
  (r.overloads name).find? fun f => f.ty = ty

/-- The first overload of a name that accepts arguments of these types. -/
def resolve? (r : Registry) (name : String) (args : List Ty) : Option Function :=
  (r.overloads name).find? fun f => f.target.signature.accepts args

/-- The names, each once. -/
def names (r : Registry) : List String := (r.entries.map (·.1)).eraseDups

/-- The number of builtins, overloads counted each. -/
def size (r : Registry) : Nat := r.entries.length

/-- Whether there are no builtins. -/
def isEmpty (r : Registry) : Bool := r.entries.isEmpty

end Registry

/-- **A builtin to be registered.** -/
structure Builtin where
  name : String
  signature : Signature
  script : Native

/-- **The code table with the registry of its builtins.** -/
structure Library where
  code : Code
  registry : Registry

namespace Library

/-- The library without builtins. -/
def empty : Library := ⟨.empty, .empty⟩

/-- **Registers a host function** under a name, with a function type. -/
def register (l : Library) (name : String) (ty : Ty) (script : Native) :
    Except Defect (Function × Library) := do
  let (target, code) ← l.code.native name ty script
  let f := Function.plain target
  return (f, ⟨code, l.registry.insert name f⟩)

/-- Registers a builtin, whose type is a function type by its form. -/
def install (l : Library) (b : Builtin) : Library :=
  let target : Target := ⟨l.code.routines.size, some b.name, b.signature, none⟩
  ⟨l.code.add (.native b.script), l.registry.insert b.name (.plain target)⟩

/-- Installing a builtin is registering it under its function type. -/
theorem register_eq_install (l : Library) (b : Builtin) :
    l.register b.name b.signature.ty b.script
      = .ok (.plain ⟨l.code.routines.size, some b.name, b.signature, none⟩, l.install b) := rfl

end Library

/-! ## The standard library -/

namespace Builtin

variable [Allocator]

/-- The numeric builtins. -/
def math : List Builtin :=
  [⟨"sqrt", ⟨[.float], .float⟩, sqrt⟩,
    ⟨"abs", ⟨[.int], .int⟩, absInt⟩,
    ⟨"abs", ⟨[.float], .float⟩, absFloat⟩,
    ⟨"sign", ⟨[.int], .int⟩, signInt⟩,
    ⟨"sign", ⟨[.float], .float⟩, signFloat⟩,
    ⟨"positive", ⟨[.float], .bool⟩, positive⟩,
    ⟨"zeros", ⟨[.int], .array .float⟩, zeros⟩,
    ⟨"range", ⟨[.int, .int], .range .int⟩, range⟩,
    ⟨"range", ⟨[.int, .int, .int], .range .int⟩, steppedRange⟩]

/-- The results that `map` and `fold` are there for. -/
def results : List Ty := [.bool, .int, .float]

/-- The sequence builtins for one sequence type and its element type. -/
def onSequence (sequence element : Ty) : List Builtin :=
  [⟨"len", ⟨[sequence], .int⟩, len⟩,
    ⟨"to_array", ⟨[sequence], .array element⟩, toArray⟩,
    ⟨"filter", ⟨[sequence, .function [element] .bool], .array element⟩, filter⟩,
    ⟨"reduce", ⟨[sequence, .function [element, element] element], element⟩, reduce⟩]
  ++ results.flatMap fun result =>
    [⟨"map", ⟨[sequence, .function [element] result], .array result⟩, map⟩,
      ⟨"fold", ⟨[sequence, result, .function [result, element] result], result⟩, fold⟩]

/-- The sequence types that the sequence builtins are there for, with their element types. -/
def sequences : List (Ty × Ty) :=
  [(.array .bool, .bool), (.array .int, .int), (.array .float, .float),
    (.range .int, .int), (.range .float, .float)]

/-- All builtins of the standard library, in registration order. -/
def standard : List Builtin :=
  math ++ sequences.flatMap fun (sequence, element) => onSequence sequence element

end Builtin

/-- **A builtin of the standard library**, over some allocator. -/
def Builtin.IsStandard (b : Builtin) : Prop := ∃ _ : Allocator, b ∈ Builtin.standard

/-- `map` is there for each sequence type and each of the results. -/
theorem Builtin.map_isStandard [allocator : Allocator] {sequence element result : Ty}
    (hsequence : (sequence, element) ∈ sequences) (hresult : result ∈ results) :
    IsStandard ⟨"map", ⟨[sequence, .function [element] result], .array result⟩, map⟩ := by
  refine ⟨allocator, List.mem_append_right _ (List.mem_flatMap.mpr ⟨_, hsequence, ?_⟩)⟩
  exact List.mem_append_right _ (List.mem_flatMap.mpr ⟨result, hresult, List.mem_cons_self⟩)

/-- **The standard library.** -/
def Library.standard [Allocator] : Library := Builtin.standard.foldl Library.install .empty

end TypedEval
