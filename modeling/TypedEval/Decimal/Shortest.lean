/-!
# The shortest decimal of a float

A finite float `m · 2^q` is the nearest float to every real of an interval around it. Its shortest
decimal is the decimal of fewest digits in that interval and, of those, the one nearest to the
float; of two that are equally near, the larger in magnitude.

The search is exact. The interval is held in natural numbers over a common power of two, and for
each number of digits the two neighbours of the value on that decimal grid are tested, from the
coarsest grid on.
-/

namespace TypedEval.Decimal

/-- **A decimal**: `0.d₁d₂…dₙ · 10^point`, with the digits as one number and their count. -/
structure Digits where
  value : Nat
  count : Nat
  point : Int
  deriving DecidableEq, Inhabited, Repr

/-- **The reals that round to one float**, scaled by a power of two: the float is `mid · 2^exp`
and the interval reaches `below` and `above` from it, its ends included if `closed`. -/
structure Rounding where
  mid : Nat
  below : Nat
  above : Nat
  exp : Int
  closed : Bool
  deriving DecidableEq, Inhabited, Repr

/-- The least significand of a normal float, `2^52`. -/
def leastNormal : Nat := 4503599627370496

/-- The rounding interval of `m · 2^q`. Below a power of two the floats lie twice as close, so the
interval is half as wide on that side. -/
def Rounding.of (m : Nat) (q : Int) : Rounding :=
  if m = leastNormal then ⟨4 * m, 1, 2, q - 2, true⟩
  else ⟨2 * m, 1, 1, q - 1, m % 2 == 0⟩

/-- **A positive fraction of naturals**, not reduced. -/
structure Ratio where
  num : Nat
  den : Nat
  deriving DecidableEq, Inhabited, Repr

/-- `n · 2^e · 10^(-p)` as a fraction. -/
def Ratio.scaled (n : Nat) (e p : Int) : Ratio :=
  ⟨n * Nat.pow 2 e.toNat * Nat.pow 10 (-p).toNat, Nat.pow 2 (-e).toNat * Nat.pow 10 p.toNat⟩

/-- The least `p` with `value < 10^p`, from a guess that may be too small by at most `tries`. -/
def magnitude (n : Nat) (e : Int) : (tries : Nat) → Int → Int
  | 0, p => p
  | tries + 1, p =>
    let r := Ratio.scaled n e p
    if r.num < r.den then p else magnitude n e tries (p + 1)

/-- **A rounding interval on a decimal grid**: the value and the ends of the interval in units of
the grid, as numerators over one denominator. -/
structure Grid where
  low : Nat
  mid : Nat
  high : Nat
  den : Nat
  closed : Bool
  deriving DecidableEq, Inhabited, Repr

/-- The interval on the grid with the unit `10^unit`. -/
def Rounding.onGrid (r : Rounding) (unit : Int) : Grid :=
  let mid := Ratio.scaled r.mid r.exp unit
  ⟨(Ratio.scaled (r.mid - r.below) r.exp unit).num, mid.num,
    (Ratio.scaled (r.mid + r.above) r.exp unit).num, mid.den, r.closed⟩

namespace Grid

/-- The grid with a tenth of the unit. -/
def finer (g : Grid) : Grid := ⟨10 * g.low, 10 * g.mid, 10 * g.high, g.den, g.closed⟩

/-- The point of the grid in the interval, if one of the value's two neighbours lies in it: the
nearer of two, and the upper one where they are equally near. -/
def hit? (g : Grid) : Option Nat :=
  let floor := g.mid / g.den
  let down := floor * g.den
  let up := (floor + 1) * g.den
  let downFits := g.low < down || (g.closed && g.low == down)
  let upFits := up < g.high || (g.closed && up == g.high)
  if upFits && (!downFits || g.den ≤ 2 * (g.mid - down)) then some (floor + 1)
  else if downFits then some floor
  else none

/-- The digits of the first hit, on this grid or after at most `tries` refinements. The grid has
`count` digits before its unit. -/
def search (point : Int) : (tries : Nat) → (count : Nat) → Grid → Digits
  | 0, count, g => ⟨g.hit?.getD 0, count, point⟩
  | tries + 1, count, g =>
    match g.hit? with
    | some value => ⟨value, count, point⟩
    | none => search point tries (count + 1) g.finer

end Grid

/-- Drops trailing zeros, and a leading carry into the digit before the first. -/
def Digits.normalize (d : Digits) : Digits :=
  let d := if Nat.pow 10 d.count ≤ d.value then ⟨d.value, d.count + 1, d.point + 1⟩ else d
  go d.count d
where
  /-- Drops at most `tries` zeros. -/
  go : Nat → Digits → Digits
    | 0, d => d
    | tries + 1, d =>
      if d.value % 10 = 0 ∧ 1 < d.count then go tries ⟨d.value / 10, d.count - 1, d.point⟩ else d

/-- **The shortest decimal** of the positive float `m · 2^q`. Seventeen digits always suffice. -/
def shortest (m : Nat) (q : Int) : Digits :=
  let r := Rounding.of m q
  let bits : Int := Nat.log2 m + q
  let point := magnitude m q 4 (bits * 30103 / 100000 - 1)
  (Grid.search point 16 1 (r.onGrid (point - 1))).normalize

end TypedEval.Decimal
