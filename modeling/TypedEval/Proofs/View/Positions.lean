import Mathlib.Algebra.Group.Int.Defs
import Mathlib.Algebra.Group.Nat.Defs
import TypedEval.Proofs.Arith
import TypedEval.Value.Elements

/-!
# Positions of a view

The cell `k` of a view has its **place** at `offset + k · step`, in unbounded integers. A view is
**in storage** when the places of all its cells are. For such a view, over an array that memory can
hold, both ways to its cells reach exactly these places: positions are computed without an overflow
(`position_eq`), and the wrapping additions of a walk never wrap (`positions_eq`).
-/

namespace TypedEval

/-! ## Machine words -/

/-- A signed word is the unsigned one below `2^63`, and `2^64` less from there on. -/
theorem toInt_eq_toNat (x : Int64) :
    x.toInt = if x.toUInt64.toNat < 2 ^ 63 then (x.toUInt64.toNat : Int)
      else (x.toUInt64.toNat : Int) - 2 ^ 64 := by
  have h := BitVec.toInt_eq_toNat_cond x.toBitVec
  have hsame : x.toBitVec.toNat = x.toUInt64.toNat := Int64.toNat_toBitVec x
  rw [hsame] at h
  have hint : x.toBitVec.toInt = x.toInt := rfl
  rw [hint] at h
  rw [h]
  split <;> split <;> omega

theorem toNat_toUInt64_of_nonneg {n : Int} (h : 0 ≤ n) (hlt : n < 2 ^ 63) :
    (Int64.ofInt n).toUInt64.toNat = n.toNat := by
  have hn := Int64.toInt_ofInt_of_le (n := n) (by omega) (by omega)
  have hx := toInt_eq_toNat (Int64.ofInt n)
  have hbound := (Int64.ofInt n).toUInt64.toNat_lt
  split at hx <;> omega

theorem toInt_toInt64 {p : UInt64} (h : p.toNat < 2 ^ 63) :
    p.toInt64.toInt = p.toNat := by
  have hx := toInt_eq_toNat p.toInt64
  rw [UInt64.toUInt64_toInt64] at hx
  split at hx <;> omega

namespace ViewOf

variable {α : Type} {v : ViewOf α} {k : Nat}

/-! ## Places -/

/-- **The place of a cell**, as an integer that need not be a position. -/
def place (v : ViewOf α) (k : Int) : Int := v.offset.toNat + k * v.step.toInt

/-- **All cells of a view lie in storage.** -/
def InStorage (v : ViewOf α) : Prop :=
  ∀ k : Nat, k < v.length → 0 ≤ v.place k ∧ v.place k < v.array.size

/-- The storage position of a cell. -/
def cell (v : ViewOf α) (k : Nat) : UInt64 := UInt64.ofNat (v.place k).toNat

theorem place_zero (v : ViewOf α) : v.place 0 = v.offset.toNat := by
  simp [place]

theorem inStorage_whole (a : ArrayOf α) : (whole a).InStorage := by
  intro k hk
  have hplace : (whole a).place k = k := by
    have hzero : (whole a).offset.toNat = 0 := rfl
    have hone : (whole a).step.toInt = 1 := rfl
    simp [place, hzero, hone]
  rw [hplace]
  exact ⟨by omega, Int.ofNat_lt.mpr hk⟩

theorem toNat_cell (hv : v.InStorage) (hsize : v.array.size < 2 ^ 63)
    (hk : k < v.length) : ((v.cell k).toNat : Int) = v.place k := by
  obtain ⟨hlow, hhigh⟩ := hv k hk
  have hsmall : (v.place k).toNat < 2 ^ 64 := by omega
  have hcell : (v.cell k).toNat = (v.place k).toNat := UInt64.toNat_ofNat_of_lt hsmall
  omega

/-- The cells of a view in storage are positions of its array. -/
theorem cell_lt_size (hv : v.InStorage) (hsize : v.array.size < 2 ^ 63)
    (hk : k < v.length) : (v.cell k).toNat < v.array.size := by
  have hcell := toNat_cell hv hsize hk
  have hplace := (hv k hk).2
  omega

theorem cell_zero (v : ViewOf α) : v.cell 0 = v.offset := by
  apply UInt64.toNat_inj.mp
  have hplace : v.place ((0 : Nat) : Int) = v.offset.toNat := v.place_zero
  rw [cell, hplace]
  exact UInt64.toNat_ofNat_of_lt v.offset.toNat_lt

/-! ## Both ways to a cell -/

/-- **Positions are exact**: neither the stride nor the place overflows. -/
theorem position_eq (hv : v.InStorage) (hsize : v.array.size < 2 ^ 63)
    (hk : k < v.length) : v.position k = .ok (v.cell k) := by
  have hfirst := hv 0 (by omega)
  have hthis := hv k hk
  have hzero : v.place ((0 : Nat) : Int) = v.offset.toNat := v.place_zero
  have hoffset : v.offset.toInt64.toInt = v.offset.toNat := toInt_toInt64 (by omega)
  have hplace : v.offset.toNat + (k : Int) * v.step.toInt = v.place k := rfl
  -- The stride is the distance of two places, and both are below `2^63`.
  have hstride : fitsWord ((k : Int) * v.step.toInt) = true := fitsWord_eq_true.mpr (by omega)
  have hfits : fitsWord (v.offset.toInt64.toInt + (k : Int) * v.step.toInt) = true :=
    fitsWord_eq_true.mpr (by omega)
  unfold position
  simp only [hstride, hfits, Bool.and_self, if_true, Except.ok.injEq]
  apply UInt64.toNat_inj.mp
  have hcell := toNat_cell hv hsize hk
  rw [hoffset, hplace, toNat_toUInt64_of_nonneg hthis.1 (by omega)]
  omega

/-- One step of a walk between two cells in storage does not wrap. -/
theorem cell_succ (hv : v.InStorage) (hsize : v.array.size < 2 ^ 63)
    (hk : k + 1 < v.length) : v.cell k + v.step.toUInt64 = v.cell (k + 1) := by
  have hhere := toNat_cell hv hsize (show k < v.length by omega)
  have hthere := toNat_cell hv hsize hk
  have hbound := (hv (k + 1) hk).2
  have hstep := toInt_eq_toNat v.step
  have hnext : v.place ((k + 1 : Nat) : Int) = v.place k + v.step.toInt := by
    simp only [place]
    rw [Int.natCast_add, Int.add_mul]
    omega
  have hlt := v.step.toUInt64.toNat_lt
  apply UInt64.toNat_inj.mp
  rw [UInt64.toNat_add]
  split at hstep <;> omega

theorem walk_eq (hv : v.InStorage) (hsize : v.array.size < 2 ^ 63) (count : Nat)
    (hcount : k + count ≤ v.length) :
    walk v.step count (v.cell k) = (List.range' k count).map v.cell := by
  induction count generalizing k with
  | zero => rfl
  | succ count ih =>
    rw [walk, List.range'_succ, List.map_cons]
    cases count with
    | zero => rfl
    | succ count =>
      rw [cell_succ hv hsize (by omega), ih (by omega)]

/-- **A walk is exact**: it goes through the cells in order. -/
theorem positions_eq (hv : v.InStorage) (hsize : v.array.size < 2 ^ 63) :
    v.positions = (List.range v.length).map v.cell := by
  have walked := walk_eq (k := 0) hv hsize v.length (by omega)
  rw [cell_zero] at walked
  rw [positions, walked, List.range_eq_range']

theorem locate_eq (hv : v.InStorage) (hsize : v.array.size < 2 ^ 63) {i : Int64}
    (hi : i.toInt = k + 1) (hk : k < v.length) : v.locate i = .ok (v.cell k) := by
  unfold locate
  rw [if_pos (by omega), show i.toInt.toNat - 1 = k by omega]
  exact position_eq hv hsize hk

end ViewOf

/-! ## Elements -/

/-- A position of a storage has an element. -/
theorem Storage.read_of_lt {s : Storage Value} {p : UInt64} (h : p.toNat < s.size) :
    ∃ x, s.read p = .ok x := by
  cases s with
  | bools items => exact ⟨_, by simp [Storage.read, Array.getElem?_eq_getElem h]; rfl⟩
  | ints items => exact ⟨_, by simp [Storage.read, Array.getElem?_eq_getElem h]; rfl⟩
  | floats items => exact ⟨_, by simp [Storage.read, Array.getElem?_eq_getElem h]; rfl⟩
  | boxed items => exact ⟨_, by simp [Storage.read, Array.getElem?_eq_getElem h]; rfl⟩

namespace ViewOf

variable {v : View} {k : Nat}

theorem get_eq (hv : v.InStorage) (hsize : v.array.size < 2 ^ 63) {i : Int64}
    (hi : i.toInt = k + 1) (hk : k < v.length) :
    v.get i = v.array.storage.read (v.cell k) := by
  unfold get
  rw [locate_eq hv hsize hi hk]
  rfl

theorem entries_eq (hv : v.InStorage) (hsize : v.array.size < 2 ^ 63) :
    v.entries = (List.range v.length).map fun k => v.array.storage.read (v.cell k) := by
  rw [entries, positions_eq hv hsize, List.map_map]
  rfl

end ViewOf

end TypedEval
