import TypedEval.Proofs.Check

/-!
# Types are read off their written form

Two types with one written form are one type (`Ty.text_inj`). The form is read from the left,
and all types but one kind are told apart by their first character. The exception are arrays: their
brackets come last, so the form of a type begins the form of every array of it, and only what follows
says where it ends.

So the law of the induction (`Ty.text_append`) compares two types with brackets behind them, up to a
character that opens none. An array hands its brackets to what follows its element type, which moves
the recursion on from the array to the element type on either side alone. Inside of ranges and
functions a type is followed by `>`, by a comma, by the arrow or by the closing parenthesis, and none
of these opens a bracket.
-/

namespace TypedEval

namespace Ty

/-! ## Brackets -/

/-- The array type of so many dimensions over a type. -/
def arrays : Nat → Ty → Ty
  | 0, t => t
  | n + 1, t => arrays n (.array t)

/-- So many pairs of brackets. -/
def brackets : Nat → List Char
  | 0 => []
  | n + 1 => '[' :: ']' :: brackets n

/-- What follows opens no bracket. -/
def NoBracket (rest : List Char) : Prop := rest.head? ≠ some '['

/-- Brackets are counted up to what opens none. -/
theorem brackets_append {n m : Nat} {r s : List Char} (hr : NoBracket r) (hs : NoBracket s)
    (h : brackets n ++ r = brackets m ++ s) : n = m ∧ r = s := by
  induction n generalizing m with
  | zero =>
    cases m with
    | zero => exact ⟨rfl, h⟩
    | succ m => exact absurd (congrArg List.head? h) hr
  | succ n ih =>
    cases m with
    | zero => exact absurd (congrArg List.head? h).symm hs
    | succ m =>
      simp only [brackets, List.cons_append, List.cons.injEq, true_and] at h
      obtain ⟨rfl, rfl⟩ := ih h
      exact ⟨rfl, rfl⟩

/-! ## Written forms, character by character -/

/-- The brackets of an array are the first of those behind its element type. -/
theorem toList_array (element : Ty) (n : Nat) (r : List Char) :
    (Ty.array element).text.toList ++ (brackets n ++ r)
      = element.text.toList ++ (brackets (n + 1) ++ r) := by
  simp [text, brackets]

theorem toList_range (element : Ty) (r : List Char) :
    (Ty.range element).text.toList ++ r
      = 'r' :: 'a' :: 'n' :: 'g' :: 'e' :: '<' :: (element.text.toList ++ '>' :: r) := by
  simp [text]

theorem toList_function (params : List Ty) (result : Ty) (r : List Char) :
    (Ty.function params result).text.toList ++ r
      = '(' :: ((paramsText params).toList ++ '-' :: '>' :: (result.text.toList ++ ')' :: r)) := by
  simp [text]

theorem toList_paramsText (t : Ty) (ts : List Ty) (r : List Char) :
    (paramsText (t :: ts)).toList ++ r = t.text.toList ++ ((restText ts).toList ++ r) := by
  simp [paramsText]

theorem toList_restText (t : Ty) (ts : List Ty) (r : List Char) :
    (restText (t :: ts)).toList ++ r = ',' :: (t.text.toList ++ ((restText ts).toList ++ r)) := by
  simp [restText]

/-- No type begins like the arrow. -/
theorem head?_text : (t : Ty) → (r : List Char) → (t.text.toList ++ r).head? ≠ some '-'
  | .bool, _ | .int, _ | .float, _ => by simp [text]
  | .function params result, r => by simp [toList_function]
  | .array element, r => by
    rw [show (Ty.array element).text.toList ++ r = _ from toList_array element 0 r]
    exact head?_text element _
  | .range element, r => by simp [toList_range]

/-- Behind a parameter there is a comma or the arrow. -/
theorem noBracket_rest (ts : List Ty) (r : List Char) :
    NoBracket ((restText ts).toList ++ '-' :: r) := by
  cases ts with
  | nil => simp [restText, NoBracket]
  | cons t ts => simp [toList_restText, NoBracket]

/-! ## Reading -/

mutual

/-- **A type is read off the beginning of a text**, with the brackets that follow it. -/
theorem text_append : (s t : Ty) → (n m : Nat) → (r r' : List Char) → NoBracket r → NoBracket r' →
    s.text.toList ++ (brackets n ++ r) = t.text.toList ++ (brackets m ++ r') →
    arrays n s = arrays m t ∧ r = r'
  | .array e, t, n, m, r, r', hr, hr', h => by
    rw [toList_array] at h
    exact text_append e t (n + 1) m r r' hr hr' h
  | s, .array f, n, m, r, r', hr, hr', h => by
    rw [toList_array] at h
    exact text_append s f n (m + 1) r r' hr hr' h
  | .bool, .bool, n, m, r, r', hr, hr', h => by
    obtain ⟨rfl, rfl⟩ := brackets_append hr hr' (List.append_cancel_left h)
    exact ⟨rfl, rfl⟩
  | .int, .int, n, m, r, r', hr, hr', h => by
    obtain ⟨rfl, rfl⟩ := brackets_append hr hr' (List.append_cancel_left h)
    exact ⟨rfl, rfl⟩
  | .float, .float, n, m, r, r', hr, hr', h => by
    obtain ⟨rfl, rfl⟩ := brackets_append hr hr' (List.append_cancel_left h)
    exact ⟨rfl, rfl⟩
  | .range e, .range f, n, m, r, r', hr, hr', h => by
    simp only [toList_range, List.cons.injEq, true_and] at h
    obtain ⟨heq, hrest⟩ := text_append e f 0 0 _ _ (by simp [NoBracket]) (by simp [NoBracket]) h
    simp only [List.cons.injEq, true_and] at hrest
    obtain ⟨rfl, rfl⟩ := brackets_append hr hr' hrest
    exact ⟨by rw [show e = f from heq], rfl⟩
  | .function ps a, .function qs b, n, m, r, r', hr, hr', h => by
    simp only [toList_function, List.cons.injEq, true_and] at h
    obtain ⟨rfl, hresult⟩ := paramsText_append ps qs _ _ h
    simp only [List.cons.injEq, true_and] at hresult
    obtain ⟨heq, hrest⟩ :=
      text_append a b 0 0 _ _ (by simp [NoBracket]) (by simp [NoBracket]) hresult
    simp only [List.cons.injEq, true_and] at hrest
    obtain ⟨rfl, rfl⟩ := brackets_append hr hr' hrest
    exact ⟨by rw [show a = b from heq], rfl⟩
  | .bool, .int, _, _, _, _, _, _, h | .bool, .float, _, _, _, _, _, _, h
  | .bool, .function _ _, _, _, _, _, _, _, h | .bool, .range _, _, _, _, _, _, _, h
  | .int, .bool, _, _, _, _, _, _, h | .int, .float, _, _, _, _, _, _, h
  | .int, .function _ _, _, _, _, _, _, _, h | .int, .range _, _, _, _, _, _, _, h
  | .float, .bool, _, _, _, _, _, _, h | .float, .int, _, _, _, _, _, _, h
  | .float, .function _ _, _, _, _, _, _, _, h | .float, .range _, _, _, _, _, _, _, h
  | .function _ _, .bool, _, _, _, _, _, _, h | .function _ _, .int, _, _, _, _, _, _, h
  | .function _ _, .float, _, _, _, _, _, _, h | .function _ _, .range _, _, _, _, _, _, _, h
  | .range _, .bool, _, _, _, _, _, _, h | .range _, .int, _, _, _, _, _, _, h
  | .range _, .float, _, _, _, _, _, _, h | .range _, .function _ _, _, _, _, _, _, _, h => by
    simp [text] at h

/-- **Parameter types are read up to the arrow.** -/
theorem paramsText_append : (ps qs : List Ty) → (r r' : List Char) →
    (paramsText ps).toList ++ '-' :: r = (paramsText qs).toList ++ '-' :: r' → ps = qs ∧ r = r'
  | [], [], _, _, h => ⟨rfl, (List.cons.inj (List.append_cancel_left h)).2⟩
  | [], q :: qs, _, _, h => by
    rw [toList_paramsText] at h
    exact absurd (congrArg List.head? h).symm (head?_text q _)
  | p :: ps, [], _, _, h => by
    rw [toList_paramsText] at h
    exact absurd (congrArg List.head? h) (head?_text p _)
  | p :: ps, q :: qs, r, r', h => by
    simp only [toList_paramsText] at h
    obtain ⟨heq, h⟩ := text_append p q 0 0 _ _ (noBracket_rest ps r) (noBracket_rest qs r') h
    obtain ⟨rfl, rfl⟩ := restText_append ps qs r r' h
    exact ⟨by rw [show p = q from heq], rfl⟩

/-- The same behind the first of them. -/
theorem restText_append : (ps qs : List Ty) → (r r' : List Char) →
    (restText ps).toList ++ '-' :: r = (restText qs).toList ++ '-' :: r' → ps = qs ∧ r = r'
  | [], [], _, _, h => ⟨rfl, (List.cons.inj (List.append_cancel_left h)).2⟩
  | [], _ :: _, _, _, h => by simp [restText] at h
  | _ :: _, [], _, _, h => by simp [restText] at h
  | p :: ps, q :: qs, r, r', h => by
    simp only [toList_restText, List.cons.injEq, true_and] at h
    obtain ⟨heq, h⟩ := text_append p q 0 0 _ _ (noBracket_rest ps r) (noBracket_rest qs r') h
    obtain ⟨rfl, rfl⟩ := restText_append ps qs r r' h
    exact ⟨by rw [show p = q from heq], rfl⟩

end

/-- Two types with one written form are one type. -/
theorem text_inj {s t : Ty} : s.text = t.text ↔ s = t := by
  constructor
  · intro h
    have read := text_append s t 0 0 [] [] (by simp [NoBracket]) (by simp [NoBracket]) (by rw [h])
    exact read.1
  · exact congrArg text

/-- **Types are read off their written form.** Two types are written alike just if they are one type. So
the check of two types may compare what is written for them, and where it reports a mismatch, the
report shows two texts that differ. -/
theorem text_readable :
    (∀ s t : Ty, s.text = t.text ↔ s = t) ∧
    ∀ (context : String) (expected actual : Ty),
      expectSame context expected actual
          = (if expected.text = actual.text then .ok ()
            else .error (.typeMismatch context expected actual)) ∧
        ∀ d, expectSame context expected actual = .error d →
          d.text = "internal evaluator defect: "
              ++ (context ++ ": expected " ++ expected.text ++ ", found " ++ actual.text) ∧
            expected.text ≠ actual.text := by
  refine ⟨fun s t => text_inj, fun context expected actual => ⟨?_, ?_⟩⟩
  · simp only [expectSame, text_inj]
  · intro d h
    unfold expectSame at h
    split at h
    · cases h
    · next hne =>
      cases h
      exact ⟨rfl, fun heq => hne (text_inj.mp heq)⟩

/-! An array of functions and a function to arrays differ by where the parenthesis closes. -/

example : (Ty.array (.function [] .int)).text = "(->int)[]" ∧
    (Ty.function [] (.array .int)).text = "(->int[])" := by decide

end Ty

end TypedEval
