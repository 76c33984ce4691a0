import TypedEval.Layout

/-!
# What a passed check says

Checks on types and layouts run in `Except`. Each law here turns a passed check into the fact that it
checked, so that later proofs never open a check again. `bind_eq_ok` takes one step off a chain of
checks.
-/

namespace TypedEval

variable {ε α β : Type}

/-- A chain of checks passed when its first step did and the rest did with its result. -/
theorem bind_eq_ok {x : Except ε α} {f : α → Except ε β} {b : β} :
    x >>= f = .ok b ↔ ∃ a, x = .ok a ∧ f a = .ok b := by
  cases x with
  | error e => exact ⟨fun h => (nomatch h), fun ⟨_, h, _⟩ => (nomatch h)⟩
  | ok a => exact ⟨fun h => ⟨a, rfl, h⟩, fun ⟨_, h, hf⟩ => by cases h; exact hf⟩

theorem ok_bind (a : α) (f : α → Except ε β) : (Except.ok a >>= f) = f a := rfl

/-- A lifted defect check passed when the check did. -/
theorem lift_defect_eq_ok {x : Except Defect α} {a : α} :
    (liftM x : Except Fault α) = .ok a ↔ x = .ok a := by
  cases x with
  | error e => exact ⟨fun h => (nomatch h), fun h => (nomatch h)⟩
  | ok b => exact ⟨fun h => by cases h; rfl, fun h => by cases h; rfl⟩

/-- A lifted cause check passed when the check did. -/
theorem lift_cause_eq_ok {x : Except Cause α} {a : α} :
    (liftM x : Except Fault α) = .ok a ↔ x = .ok a := by
  cases x with
  | error e => exact ⟨fun h => (nomatch h), fun h => (nomatch h)⟩
  | ok b => exact ⟨fun h => by cases h; rfl, fun h => by cases h; rfl⟩

/-! ## Two chains of checks side by side -/

/-- Where each step of one chain gives the image of the other's, so does the whole chain. -/
theorem bind_eq_map {γ δ : Type} {x : Except ε α} {y : Except ε β} {g : α → β}
    {k : α → Except ε γ} {l : β → Except ε δ} {h : γ → δ} (hx : y = x.map g)
    (hk : ∀ a, l (g a) = (k a).map h) : (y >>= l) = (x >>= k).map h := by
  subst hx
  cases x with
  | error e => rfl
  | ok a => exact hk a

/-- The same of chains with one first step. -/
theorem bind_congr_map {γ : Type} {x : Except ε α} {k : α → Except ε β} {l : α → Except ε γ}
    {h : β → γ} (hk : ∀ a, l a = (k a).map h) : (x >>= l) = (x >>= k).map h := by
  cases x with
  | error e => rfl
  | ok a => exact hk a

theorem lift_defect_map (g : α → β) (x : Except Defect α) :
    (liftM (x.map g) : Except Fault β) = (liftM x : Except Fault α).map g := by
  cases x <;> rfl

theorem lift_cause_map (g : α → β) (x : Except Cause α) :
    (liftM (x.map g) : Except Fault β) = (liftM x : Except Fault α).map g := by
  cases x <;> rfl

namespace Ty

theorem expectSame_eq_ok {context : String} {a b : Ty} {u : Unit} :
    expectSame context a b = .ok u ↔ a = b := by
  unfold expectSame
  split
  · next h => exact ⟨fun _ => h, fun _ => rfl⟩
  · next h => exact ⟨fun h => (nomatch h), fun he => absurd he h⟩

theorem expectFunction_eq_ok {t : Ty} {s : Signature} : t.expectFunction = .ok s ↔ t = s.ty := by
  rw [← signature?_eq_some_iff]
  unfold expectFunction
  cases t.signature? with
  | none => exact ⟨fun h => (nomatch h), fun h => (nomatch h)⟩
  | some r => simp only [Except.ok.injEq, Option.some.injEq]

theorem eq_bool_of_family {t : Ty} (h : t.family = .bool) : t = .bool := by
  cases t <;> first | rfl | cases h

theorem eq_int_of_family {t : Ty} (h : t.family = .int) : t = .int := by
  cases t <;> first | rfl | cases h

theorem eq_float_of_family {t : Ty} (h : t.family = .float) : t = .float := by
  cases t <;> first | rfl | cases h

theorem eq_bool_of_category {t : Ty} (h : Category.bool = t.category) : t = .bool := by
  cases t <;> first | rfl | cases h

theorem eq_int_of_category {t : Ty} (h : Category.int = t.category) : t = .int := by
  cases t <;> first | rfl | cases h

theorem eq_float_of_category {t : Ty} (h : Category.float = t.category) : t = .float := by
  cases t <;> first | rfl | cases h

end Ty

namespace Layout

variable {l : Layout} {slot : Nat} {d : Declaration} {ty : Ty}

theorem declaration_eq_ok : l.declaration slot = .ok d ↔ l.slots[slot]? = some d := by
  unfold declaration
  cases l.slots[slot]? with
  | none => exact ⟨fun h => (nomatch h), fun h => (nomatch h)⟩
  | some e => simp only [Except.ok.injEq, Option.some.injEq]

/-- The declared type of a slot, as a fact about the layout. -/
def Declares (l : Layout) (slot : Nat) (ty : Ty) : Prop :=
  ∃ d, l.slots[slot]? = some d ∧ d.ty = ty

theorem slotType_eq_ok : l.slotType slot = .ok ty ↔ l.Declares slot ty := by
  unfold slotType
  rw [bind_eq_ok]
  simp only [declaration_eq_ok]
  exact ⟨fun ⟨d, hd, h⟩ => ⟨d, hd, by cases h; rfl⟩, fun ⟨d, hd, h⟩ => ⟨d, hd, by cases h; rfl⟩⟩

theorem expectSlot_eq_ok {u : Unit} : l.expectSlot slot ty = .ok u ↔ l.Declares slot ty := by
  unfold expectSlot
  rw [bind_eq_ok]
  simp only [declaration_eq_ok, Ty.expectSame_eq_ok]
  exact Iff.rfl

/-- A slot is declared with one type. -/
theorem Declares.unique {t u : Ty} (ht : l.Declares slot t) (hu : l.Declares slot u) : t = u := by
  obtain ⟨d, hd, rfl⟩ := ht
  obtain ⟨e, he, rfl⟩ := hu
  rw [hd] at he
  cases he
  rfl

end Layout

/-- Passed transfers pair slots that are declared with one type. -/
theorem checkTransfers_eq_ok {source target : Layout} {ts : List Transfer} :
    checkTransfers source target ts = .ok () ↔
      ∀ t ∈ ts, ∃ ty, source.Declares t.source ty ∧ target.Declares t.target ty := by
  induction ts with
  | nil => exact ⟨fun _ _ h => (nomatch h), fun _ => rfl⟩
  | cons t ts ih =>
    simp only [checkTransfers, bind_eq_ok, Layout.slotType_eq_ok, Layout.expectSlot_eq_ok, ih,
      List.forall_mem_cons]
    constructor
    · rintro ⟨ty, hs, _, ht, hts⟩
      exact ⟨⟨ty, hs, ht⟩, hts⟩
    · rintro ⟨⟨ty, hs, ht⟩, hts⟩
      exact ⟨ty, hs, (), ht, hts⟩

end TypedEval
