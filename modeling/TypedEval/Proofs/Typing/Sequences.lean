import TypedEval.Proofs.Value.Sequences

/-!
# Typed sequences

What is said of sequences of a type over any admitted functions, for functions that are typed at the
layouts of a store. What was typed stays typed when closures are added.
-/

namespace TypedEval

section

variable {code : Code} {ls : List Layout} {element : Ty}

/-! ## Admitting typed functions -/

theorem Value.Fits.of {v : Value} {ty : Ty} (hv : v.Fits code ls ty) :
    v.Of (Function.Typed code ls none) ty :=
  ⟨hv.ty, hv.wellTyped⟩

theorem Value.Of.fits {v : Value} {ty : Ty} (hv : v.Of (Function.Typed code ls none) ty) :
    v.Fits code ls ty :=
  ⟨hv.ty, hv.wellTyped⟩

theorem Storage.Typed.of {s : Storage Value} (hs : s.Typed code ls element) :
    s.Of (Function.Typed code ls none) element :=
  ⟨hs.category, fun v hv => (hs.elements v hv).of⟩

theorem Storage.Of.typed {s : Storage Value} (hs : s.Of (Function.Typed code ls none) element) :
    s.Typed code ls element :=
  ⟨hs.category, fun v hv => (hs.elements v hv).fits⟩

/-! ## Storages and views -/

/-- A finished array of typed storage fits. -/
theorem Storage.Typed.array {s : Storage Value} (hs : s.Typed code ls element) (id : Nat) :
    (Value.array ⟨id, element, s⟩).Fits code ls (.array element) :=
  (hs.of.array id).fits

/-- A view of typed storage fits, whatever positions it has. -/
theorem Storage.Typed.slice {v : View} (hs : v.array.storage.Typed code ls v.array.element) :
    (Value.slice v).Fits code ls (.array v.array.element) :=
  hs.of.slice.fits

/-- A value of an array type has a view of a typed storage. -/
theorem Value.Fits.view {v : Value} (hv : v.Fits code ls (.array element)) :
    ∃ w, v.expectView = .ok w ∧ w.array.element = element ∧
      w.array.storage.Typed code ls element := by
  obtain ⟨w, hw, helement, hs⟩ := hv.of.view
  exact ⟨w, hw, helement, hs.typed⟩

/-- **An indexed element fits**, in the form that a node of its family hands over. -/
theorem ViewOf.getAs_typed {v : View} (hv : v.array.storage.Typed code ls element)
    {family : Family} (hfamily : element.family = family) (i : Int64) :
    Gives (v.getAs family i) fun x => (family.box x).Fits code ls element :=
  (getAs_of hv.of hfamily i).imp fun _ hx => hx.fits

/-- A copied view is an array of its element type. -/
theorem ViewOf.copy_typed {v : View} (hv : v.array.storage.Typed code ls v.array.element)
    (id : Nat) : Gives (v.copy id) fun a => (Value.array a).Fits code ls (.array v.array.element) :=
  (copy_of hv.of id).imp fun _ ha => ha.fits

/-! ## Builders -/

namespace Builder

/-- **A builder of a type is typed.** -/
structure Typed (code : Code) (ls : List Layout) (ty : Ty) (b : Builder) : Prop where
  element : b.element = ty
  storage : b.storage.Typed code ls ty

variable {b : Builder}

theorem Typed.of (hb : b.Typed code ls element) : b.Of (Function.Typed code ls none) element :=
  ⟨hb.element, hb.storage.of⟩

theorem Of.typed (hb : b.Of (Function.Typed code ls none) element) : b.Typed code ls element :=
  ⟨hb.element, hb.storage.typed⟩

theorem Typed.new : (Builder.new element).Typed code ls element := Of.new.typed

theorem Typed.mono {ls' : List Layout} (h : ls <+: ls') (hb : b.Typed code ls element) :
    b.Typed code ls' element :=
  ⟨hb.element, hb.storage.mono h⟩

theorem Typed.finish (hb : b.Typed code ls element) (id : Nat) :
    (Value.array (b.finish id)).Fits code ls (.array element) :=
  (hb.of.finish id).fits

/-- **A value that fits can be pushed.** -/
theorem Typed.push (hb : b.Typed code ls element) {v : Value} (hv : v.Fits code ls element) :
    ∃ c, b.push v = .ok c ∧ c.Typed code ls element := by
  obtain ⟨c, hc, hof⟩ := hb.of.push hv.of
  exact ⟨c, hc, hof.typed⟩

theorem Typed.pushAs (hb : b.Typed code ls element) {family : Family} {x : Carrier family}
    (hfamily : element.family = family) (hx : (family.box x).Fits code ls element) :
    ∃ c, b.pushAs family x = .ok c ∧ c.Typed code ls element := by
  rw [hb.of.pushAs_eq hfamily]
  exact hb.push hx

end Builder

/-! ## Enumerations -/

namespace Elements

/-- **An enumeration of elements of a type.** -/
def Typed (code : Code) (ls : List Layout) (element : Ty) : Elements → Prop
  | .cells storage _ _ _ => storage.Typed code ls element
  | .ints _ => element = .int
  | .floats _ => element = .float

variable {it rest : Elements}

theorem Typed.of (hit : it.Typed code ls element) : it.Of (Function.Typed code ls none) element := by
  cases it with
  | cells storage next step remaining => exact Storage.Typed.of hit
  | ints it => exact hit
  | floats it => exact hit

theorem Of.typed (hit : it.Of (Function.Typed code ls none) element) : it.Typed code ls element := by
  cases it with
  | cells storage next step remaining => exact Storage.Of.typed hit
  | ints it => exact hit
  | floats it => exact hit

theorem Typed.mono {ls' : List Layout} (h : ls <+: ls') (hit : it.Typed code ls element) :
    it.Typed code ls' element := by
  cases it with
  | cells storage next step remaining => exact Storage.Typed.mono h hit
  | ints it => exact hit
  | floats it => exact hit

/-- **The next element of an enumeration fits**, and the rest is of the same type. -/
theorem Typed.next {v : Except Fault Value} (hit : it.Typed code ls element)
    (h : it.next? = some (v, rest)) :
    Gives v (fun x => x.Fits code ls element) ∧ rest.Typed code ls element := by
  obtain ⟨hv, hrest⟩ := hit.of.next h
  exact ⟨hv.imp fun _ hx => hx.fits, hrest.typed⟩

/-- A typed builder stays typed when elements of its type are added to it. -/
theorem Typed.fill (hit : it.Typed code ls element) {b : Builder} (hb : b.Typed code ls element)
    (limit : Nat) : Gives (it.fill limit b) fun c => c.Typed code ls element :=
  (hit.of.fill hb.of limit).imp fun _ hc => hc.typed

end Elements

/-- **A sequence enumerates elements of its type.** -/
theorem Value.Fits.elements {v : Value} {sequence : Ty} (hv : v.Fits code ls sequence)
    (hs : sequence.element? = some element) :
    v.elementType = .ok element ∧ Gives v.elements fun it => it.Typed code ls element := by
  obtain ⟨helement, helements⟩ := hv.of.elements hs
  exact ⟨helement, helements.imp fun _ hit => hit.typed⟩

end

end TypedEval
