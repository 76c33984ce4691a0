import TypedEval.Decimal.Shortest

/-!
# Floats as text

Two written forms of a float share its shortest decimal. The **plain** form always shows a fraction
(`1.0`) and turns to an exponent outside `10^-4 ≤ |x| < 10^16`; the **positional** form shows a
fraction only where there is one and never an exponent. Both write `NaN` without a sign and keep the
sign of a negative zero.
-/

namespace TypedEval.Decimal

/-- **A float taken apart** by its bits. -/
inductive Parts where
  | nan
  | infinite (negative : Bool)
  | zero (negative : Bool)
  /-- The float `± m · 2^q` with `m` positive. -/
  | finite (negative : Bool) (m : Nat) (q : Int)
  deriving DecidableEq, Inhabited, Repr

/-- Reads sign, exponent and fraction off the 64 bits of a float. -/
def Parts.ofBits (bits : UInt64) : Parts :=
  let n := bits.toNat
  let exponent := n / leastNormal % 2048
  let fraction := n % leastNormal
  let negative := n / (2048 * leastNormal) == 1
  if exponent = 2047 then
    if fraction = 0 then .infinite negative else .nan
  else if exponent = 0 then
    if fraction = 0 then .zero negative else .finite negative fraction (-1074)
  else .finite negative (leastNormal + fraction) ((exponent : Int) - 1075)

/-- **A written form of finite floats.** -/
structure Form where
  /-- Decimal points from here to `most` are written positionally; `none` is always. -/
  window : Option (Int × Int)
  /-- Whether an integral float shows `.0`. -/
  fraction : Bool
  deriving DecidableEq, Inhabited

/-- The form in which values are shown. -/
def Form.plain : Form := ⟨some (-3, 16), true⟩

/-- The form in which messages about ranges show floats. -/
def Form.positional : Form := ⟨none, false⟩

/-- The digits as text, filled with zeros at the front to their count. -/
def Digits.text (d : Digits) : List Char :=
  let ds := (toString d.value).toList
  List.replicate (d.count - ds.length) '0' ++ ds

/-- `0.ddd`, `dd.dd` or `ddd000`, by where the point falls. -/
def Digits.positional (d : Digits) (fraction : Bool) : List Char :=
  let ds := d.text
  if d.point ≤ 0 then '0' :: '.' :: (List.replicate (-d.point).toNat '0' ++ ds)
  else
    let before := d.point.toNat
    if before < ds.length then ds.take before ++ '.' :: ds.drop before
    else
      ds ++ List.replicate (before - ds.length) '0' ++ (if fraction then ['.', '0'] else [])

/-- `d.ddde-x`, without a point if there is one digit. -/
def Digits.scientific (d : Digits) : List Char :=
  match d.text with
  | [] => []
  | first :: rest =>
    first :: ((if rest.isEmpty then [] else '.' :: rest) ++ 'e' :: (toString (d.point - 1)).toList)

/-- The digits in the given form. -/
def Form.digits (f : Form) (d : Digits) : List Char :=
  match f.window with
  | none => d.positional f.fraction
  | some (least, most) =>
    if least ≤ d.point ∧ d.point ≤ most then d.positional f.fraction else d.scientific

/-- A float taken apart, in the given form. -/
def Form.parts (f : Form) : Parts → String
  | .nan => "NaN"
  | .infinite negative => (if negative then "-" else "") ++ "inf"
  | .zero negative => (if negative then "-" else "") ++ (if f.fraction then "0.0" else "0")
  | .finite negative m q =>
    (if negative then "-" else "") ++ String.ofList (f.digits (shortest m q))

/-- A float in the given form. -/
def Form.text (f : Form) (x : Float) : String := f.parts (.ofBits x.toBits)

end TypedEval.Decimal

namespace TypedEval

/-- **The text of a float value**: `1.0`, `0.1`, `1e16`, `9e-5`, `-0.0`, `NaN`. -/
def floatText (x : Float) : String := Decimal.Form.plain.text x

/-- The text of a float inside a message about a range: `1`, `0.1`, `NaN`, never an exponent. -/
def floatPositional (x : Float) : String := Decimal.Form.positional.text x

end TypedEval
