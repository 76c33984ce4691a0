import Mathlib.Algebra.Order.Ring.Int
import TypedEval.Arith

/-!
# Checked arithmetic is exact

An operator on words gives the integer that it gives on integers, or says why there is no such word
(`IntOp.apply_exact`). Sums, differences and products are computed as integers and checked. A
quotient leaves the words at one pair of operands only, where the remainder is refused as well.

Powers are where the argument is. They are never computed beyond an exponent of 65: from 64 on, a
base of two or more in size has left the words (`not_fits_pow`), and the powers of the other three
bases go with the parity of the exponent (`pow_reducedExponent`). That holds below 32 bits of
exponent, where a power is computed, and beyond, where it is read off the base.
-/

namespace TypedEval

/-! ## Results that fit a word -/

theorem fitsWord_eq_true {n : Int} :
    fitsWord n = true ↔ -2 ^ 63 ≤ n ∧ n < 2 ^ 63 := by
  simp [fitsWord]

/-- **A result is exact**: the integer itself where it fits a word, and an overflow of the operation
where it does not. -/
structure Exact (result : Except Cause Int64) (operation : String) (n : Int) : Prop where
  value : (∃ x : Int64, result = .ok x ∧ x.toInt = n) ↔ -2 ^ 63 ≤ n ∧ n < 2 ^ 63
  overflow : result = .error (.integerOverflow operation) ↔ ¬ (-2 ^ 63 ≤ n ∧ n < 2 ^ 63)

theorem checkedInt_of_fits {operation : String} {n : Int} (h : -2 ^ 63 ≤ n ∧ n < 2 ^ 63) :
    checkedInt operation n = .ok (Int64.ofInt n) := if_pos (fitsWord_eq_true.mpr h)

theorem checkedInt_of_not_fits {operation : String} {n : Int}
    (h : ¬ (-2 ^ 63 ≤ n ∧ n < 2 ^ 63)) :
    checkedInt operation n = .error (.integerOverflow operation) :=
  if_neg fun hfits => h (fitsWord_eq_true.mp hfits)

/-- **A checked integer is exact.** -/
theorem checkedInt_exact (operation : String) (n : Int) :
    Exact (checkedInt operation n) operation n := by
  by_cases h : -2 ^ 63 ≤ n ∧ n < 2 ^ 63
  · rw [checkedInt_of_fits h]
    exact ⟨⟨fun _ => h, fun _ => ⟨_, rfl, Int64.toInt_ofInt_of_le h.1 h.2⟩⟩,
      ⟨fun hn => (nomatch hn), fun hn => absurd h hn⟩⟩
  · rw [checkedInt_of_not_fits h]
    exact ⟨⟨fun ⟨_, hx, _⟩ => (nomatch hx), fun hn => absurd hn h⟩, ⟨fun _ => h, fun _ => rfl⟩⟩

namespace IntOp

/-! ## Division -/

/-- A quotient of words leaves the words at one pair only. -/
theorem tdiv_fits_iff {a b : Int} (ha : -2 ^ 63 ≤ a ∧ a < 2 ^ 63) (hb : b ≠ 0) :
    (-2 ^ 63 ≤ Int.tdiv a b ∧ Int.tdiv a b < 2 ^ 63) ↔ ¬ (a = -2 ^ 63 ∧ b = -1) := by
  constructor
  · rintro hfits ⟨rfl, rfl⟩
    exact absurd hfits.2 (by decide)
  · intro hpair
    have hsize : (Int.tdiv a b).natAbs = a.natAbs / b.natAbs := Int.natAbs_tdiv a b
    by_cases hone : b.natAbs = 1
    · obtain rfl | rfl : b = 1 ∨ b = -1 := by omega
      · rw [Int.tdiv_one]
        exact ha
      · rw [Int.tdiv_neg, Int.tdiv_one]
        omega
    · -- A divisor of two or more in size at least halves the dividend.
      have hhalf : a.natAbs / b.natAbs ≤ a.natAbs / 2 := Nat.div_le_div_left (by omega) (by omega)
      omega

theorem natAbs_tmod_lt {a b : Int} (hb : b ≠ 0) : (Int.tmod a b).natAbs < b.natAbs := by
  rw [Int.natAbs_tmod]
  exact Nat.mod_lt _ (by omega)

/-- A remainder is zero or has the sign of the dividend. -/
theorem sign_tmod (a b : Int) : Int.tmod a b = 0 ∨ (Int.tmod a b).sign = a.sign := by
  by_cases hzero : Int.tmod a b = 0
  · exact .inl hzero
  · right
    obtain hneg | rfl | hpos := Int.lt_trichotomy a 0
    · have hle : 0 ≤ Int.tmod (-a) b := Int.tmod_nonneg b (by omega)
      rw [Int.neg_tmod] at hle
      rw [Int.sign_eq_neg_one_of_neg hneg, Int.sign_eq_neg_one_of_neg (by omega)]
    · exact absurd (Int.zero_tmod b) hzero
    · have hle : 0 ≤ Int.tmod a b := Int.tmod_nonneg b (Int.le_of_lt hpos)
      rw [Int.sign_eq_one_of_pos hpos, Int.sign_eq_one_of_pos (by omega)]

/-! ## Powers -/

/-- A base of two or more in size leaves the words within 64 factors. -/
theorem not_fits_pow {x : Int} {e : Nat} (hx : 2 ≤ x.natAbs) (he : 64 ≤ e) :
    ¬ (-2 ^ 63 ≤ x ^ e ∧ x ^ e < 2 ^ 63) := by
  have hsize : 2 ^ 64 ≤ (x ^ e).natAbs := by
    rw [Int.natAbs_pow]
    calc 2 ^ 64 ≤ 2 ^ e := Nat.pow_le_pow_right (by omega) he
      _ ≤ x.natAbs ^ e := Nat.pow_le_pow_left hx e
  omega

/-- The powers of `-1` go with the parity of the exponent. -/
theorem neg_one_pow_eq (e : Nat) : (-1 : Int) ^ e = if e % 2 = 0 then 1 else -1 := by
  split
  · next h => exact Even.neg_one_pow (Nat.even_iff.mpr h)
  · next h => exact Odd.neg_one_pow (Nat.odd_iff.mpr (by omega))

/-- The powers of the three bases that never leave the words depend on the reduced exponent. -/
theorem pow_reducedExponent {x : Int} (hx : x = 0 ∨ x = 1 ∨ x = -1) (e : Nat) :
    x ^ reducedExponent e = x ^ e := by
  unfold reducedExponent
  split
  · rfl
  · obtain rfl | rfl | rfl := hx
    · rw [zero_pow (by omega), zero_pow (by omega)]
    · rw [one_pow, one_pow]
    · rw [neg_one_pow_eq, neg_one_pow_eq, show (64 + e % 2) % 2 = e % 2 by omega]

/-- **The reduced exponent gives the power, or overflows alike.** -/
theorem checkedInt_reducedExponent (operation : String) (x : Int) (e : Nat) :
    checkedInt operation (x ^ reducedExponent e) = checkedInt operation (x ^ e) := by
  by_cases hx : x = 0 ∨ x = 1 ∨ x = -1
  · rw [pow_reducedExponent hx]
  · have hlarge : 2 ≤ x.natAbs := by omega
    by_cases he : e < 64
    · rw [reducedExponent, if_pos he]
    · have hreduced : 64 ≤ reducedExponent e := by
        rw [reducedExponent, if_neg he]
        omega
      rw [checkedInt_of_not_fits (not_fits_pow hlarge hreduced),
        checkedInt_of_not_fits (not_fits_pow hlarge (by omega))]

/-- **Powers are the integer powers, checked**, whichever way they are found. -/
theorem power_of_nonneg {a b : Int64} (hb : 0 ≤ b.toInt) :
    power a b = checkedInt "exponentiation" (a.toInt ^ b.toInt.toNat) := by
  unfold power
  rw [if_neg (by omega)]
  split
  · exact checkedInt_reducedExponent _ _ _
  · next hwide =>
    split
    · next hbase =>
      obtain rfl | rfl := hbase
      · have hpower : (0 : Int64).toInt ^ b.toInt.toNat = 0 := zero_pow (by omega)
        rw [hpower]
        rfl
      · have hpower : (1 : Int64).toInt ^ b.toInt.toNat = 1 := one_pow _
        rw [hpower]
        rfl
    · next hnot =>
      split
      · next hbase =>
        subst hbase
        have hpower : (-1 : Int64).toInt ^ b.toInt.toNat = if b.toInt.toNat % 2 = 0 then 1 else -1 :=
          neg_one_pow_eq _
        rw [hpower]
        by_cases heven : b.toInt % 2 = 0
        · rw [if_pos heven, if_pos (by omega)]
          rfl
        · rw [if_neg heven, if_neg (by omega)]
          rfl
      · next hminus =>
        -- The base is none of the three, so its power is out of range at this exponent.
        have hzero : a.toInt ≠ 0 := fun h => hnot (.inl (Int64.toInt_inj.mp h))
        have hone : a.toInt ≠ 1 := fun h => hnot (.inr (Int64.toInt_inj.mp h))
        have hneg : a.toInt ≠ -1 := fun h => hminus (Int64.toInt_inj.mp h)
        rw [checkedInt_of_not_fits (not_fits_pow (by omega) (by omega))]

theorem power_eq_domain_iff {a b : Int64} :
    (∃ message, power a b = .error (.domain "^" message)) ↔ b.toInt < 0 := by
  constructor
  · rintro ⟨message, h⟩
    apply Classical.byContradiction
    intro hb
    rw [power_of_nonneg (by omega), checkedInt] at h
    split at h <;> cases h
  · intro hb
    exact ⟨_, if_pos hb⟩

/-! ## All operators -/

theorem div_of_ne_zero {a b : Int64} (hb : b ≠ 0) :
    div.apply a b = checkedInt "division" (Int.tdiv a.toInt b.toInt) := if_neg hb

theorem rem_of_ne_zero {a b : Int64} (hb : b ≠ 0) :
    rem.apply a b = if a = Int64.minValue ∧ b = -1 then .error (.integerOverflow "remainder")
      else .ok (Int64.ofInt (Int.tmod a.toInt b.toInt)) := if_neg hb

/-- Quotient and remainder of words, where both are words. -/
theorem divides_exactly {a b : Int64} (hb : b.toInt ≠ 0)
    (hpair : ¬ (a.toInt = -2 ^ 63 ∧ b.toInt = -1)) :
    ∃ q r : Int64, div.apply a b = .ok q ∧ rem.apply a b = .ok r ∧
      a.toInt = q.toInt * b.toInt + r.toInt ∧ r.toInt.natAbs < b.toInt.natAbs ∧
      (r.toInt = 0 ∨ r.toInt.sign = a.toInt.sign) := by
  have hzero : b ≠ 0 := fun h => hb (by rw [h]; rfl)
  have hquotient := (tdiv_fits_iff ⟨a.le_toInt, a.toInt_lt⟩ hb).mpr hpair
  have hsmall := natAbs_tmod_lt (a := a.toInt) hb
  have hleast := b.le_toInt
  have hmost := b.toInt_lt
  have hq : (Int64.ofInt (Int.tdiv a.toInt b.toInt)).toInt = Int.tdiv a.toInt b.toInt :=
    Int64.toInt_ofInt_of_le hquotient.1 hquotient.2
  have hr : (Int64.ofInt (Int.tmod a.toInt b.toInt)).toInt = Int.tmod a.toInt b.toInt :=
    Int64.toInt_ofInt_of_le (by omega) (by omega)
  refine ⟨_, _, (div_of_ne_zero hzero).trans (checkedInt_of_fits hquotient),
    (rem_of_ne_zero hzero).trans (if_neg ?_), ?_, ?_, ?_⟩
  · rintro ⟨rfl, rfl⟩
    exact hpair ⟨rfl, rfl⟩
  · rw [hq, hr, Int.mul_comm]
    exact (Int.mul_tdiv_add_tmod a.toInt b.toInt).symm
  · rw [hr]
    exact hsmall
  · rw [hr]
    exact sign_tmod a.toInt b.toInt

/-- **Checked arithmetic is exact.** Sums, differences and products are the integer results, where
these fit a word. Quotients and remainders are those of truncated division, but by zero and at the one
pair whose quotient is no word. Powers of no negative exponent, however large, are the integer powers
where these fit a word. All else is refused, and refused for its own cause. -/
theorem apply_exact (a b : Int64) :
    Exact (add.apply a b) "addition" (a.toInt + b.toInt) ∧
    Exact (sub.apply a b) "subtraction" (a.toInt - b.toInt) ∧
    Exact (mul.apply a b) "multiplication" (a.toInt * b.toInt) ∧
    (div.apply a b = .error .divisionByZero ↔ b.toInt = 0) ∧
    (rem.apply a b = .error .divisionByZero ↔ b.toInt = 0) ∧
    (div.apply a b = .error (.integerOverflow "division") ↔ a.toInt = -2 ^ 63 ∧ b.toInt = -1) ∧
    (rem.apply a b = .error (.integerOverflow "remainder") ↔ a.toInt = -2 ^ 63 ∧ b.toInt = -1) ∧
    ((∃ q r : Int64, div.apply a b = .ok q ∧ rem.apply a b = .ok r ∧
        a.toInt = q.toInt * b.toInt + r.toInt ∧ r.toInt.natAbs < b.toInt.natAbs ∧
        (r.toInt = 0 ∨ r.toInt.sign = a.toInt.sign)) ↔
      b.toInt ≠ 0 ∧ ¬ (a.toInt = -2 ^ 63 ∧ b.toInt = -1)) ∧
    ((∃ message, pow.apply a b = .error (.domain "^" message)) ↔ b.toInt < 0) ∧
    (0 ≤ b.toInt → Exact (pow.apply a b) "exponentiation" (a.toInt ^ b.toInt.toNat)) := by
  refine ⟨checkedInt_exact _ _, checkedInt_exact _ _, checkedInt_exact _ _, ?_⟩
  have hdomain := power_eq_domain_iff (a := a) (b := b)
  have hpowers : 0 ≤ b.toInt → Exact (power a b) "exponentiation" (a.toInt ^ b.toInt.toNat) := by
    intro hb
    rw [power_of_nonneg hb]
    exact checkedInt_exact _ _
  by_cases hb : b.toInt = 0
  · obtain rfl : b = 0 := Int64.toInt_inj.mp hb
    have hdiv : div.apply a 0 = .error .divisionByZero := rfl
    have hrem : rem.apply a 0 = .error .divisionByZero := rfl
    rw [hdiv, hrem]
    exact ⟨iff_of_true rfl rfl, iff_of_true rfl rfl, iff_of_false nofun nofun,
      iff_of_false nofun nofun, iff_of_false nofun fun h => h.1 rfl, hdomain, hpowers⟩
  · by_cases hpair : a.toInt = -2 ^ 63 ∧ b.toInt = -1
    · obtain rfl : a = Int64.minValue := Int64.toInt_inj.mp hpair.1
      obtain rfl : b = -1 := Int64.toInt_inj.mp hpair.2
      have hdiv : div.apply Int64.minValue (-1) = .error (.integerOverflow "division") := rfl
      have hrem : rem.apply Int64.minValue (-1) = .error (.integerOverflow "remainder") := rfl
      rw [hdiv, hrem]
      exact ⟨iff_of_false nofun hb, iff_of_false nofun hb, iff_of_true rfl hpair,
        iff_of_true rfl hpair, iff_of_false nofun fun h => h.2 hpair, hdomain, hpowers⟩
    · obtain ⟨q, r, hdiv, hrem, hexact⟩ := divides_exactly hb hpair
      rw [hdiv, hrem]
      exact ⟨iff_of_false nofun hb, iff_of_false nofun hb, iff_of_false nofun hpair,
        iff_of_false nofun hpair, iff_of_true ⟨q, r, rfl, rfl, hexact⟩ ⟨hb, hpair⟩, hdomain,
        hpowers⟩

end IntOp

end TypedEval
