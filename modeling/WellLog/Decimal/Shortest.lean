/-!
# The shortest decimal of a binary fraction

A binary floating point number stands for every real that rounds to it.  Among the decimals in that
interval `shortest` takes the ones with the fewest digits, and of those the nearest to the number.

The number is `significand * 2 ^ exponent`.  Its interval reaches half a unit up, and half a unit
down, or a quarter of a unit down where the number below is twice as close.  The ends belong to it
when the significand is even, because halves round to even.
-/

namespace WellLog.Decimal

/-- Which of two equally near decimals is taken. -/
inductive Tie where
  /-- The larger one. -/
  | up
  /-- The one whose last digit is even. -/
  | even
  deriving DecidableEq, Repr

/-- A positive decimal `digits * 10 ^ exponent`. -/
structure Scaled where
  /-- The significant digits as a number. -/
  digits : Nat
  /-- The power of ten of the last digit. -/
  exponent : Int
  deriving DecidableEq, Repr

/-- A positive binary fraction with the interval that rounds to it. -/
structure Rounding where
  /-- The significand. -/
  significand : Nat
  /-- The power of two. -/
  exponent : Int
  /-- Whether the number below is only half a unit away. -/
  narrowBelow : Bool
  deriving DecidableEq, Repr

namespace Rounding

/-- The number over a common denominator, in quarters of a unit, on the grid of `10 ^ e`: the pair
`(quarter, grid)` such that the number is `4 * significand * quarter / grid` grid steps. -/
def scale (r : Rounding) (e : Int) : Nat × Nat :=
  let q := r.exponent - 2
  (1 <<< q.toNat * Nat.pow 10 (-e).toNat, 1 <<< (-q).toNat * Nat.pow 10 e.toNat)

/-- The nearest decimal to the number on the grid of `10 ^ e`, among its two neighbours there that
round to the number. -/
def onGrid? (r : Rounding) (tie : Tie) (e : Int) : Option Nat :=
  let (quarter, grid) := r.scale e
  let value := 4 * r.significand * quarter
  let below := value / grid
  let down := value - below * grid
  let up := (below + 1) * grid - value
  let inside (distance reach : Nat) : Bool :=
    if r.significand % 2 = 0 then distance ≤ reach * quarter else distance < reach * quarter
  let lower := inside down (if r.narrowBelow then 1 else 2)
  let upper := inside up 2
  match lower, upper with
  | true, true =>
    if down < up then some below
    else if up < down then some (below + 1)
    else match tie with
      | .up => some (below + 1)
      | .even => some (if below % 2 = 0 then below else below + 1)
  | true, false => some below
  | false, true => some (below + 1)
  | false, false => none

/-- The power of ten of the first digit of the number. -/
def magnitude (r : Rounding) : Int :=
  let guess := (Int.ofNat r.significand.log2 + r.exponent) * 1233 / 4096
  let reaches (e : Int) : Bool :=
    let (quarter, grid) := r.scale e
    grid ≤ 4 * r.significand * quarter
  if reaches (guess + 1) then guess + 1 else if reaches guess then guess else guess - 1

end Rounding

/-- Without trailing zeros: the same decimal with its digits as few as can be. -/
def Scaled.trim (d : Scaled) : Scaled :=
  if h : d.digits ≠ 0 ∧ d.digits % 10 = 0 then
    Scaled.trim ⟨d.digits / 10, d.exponent + 1⟩
  else d
termination_by d.digits
decreasing_by omega

/-- The shortest decimal that rounds to the number, and of those the nearest.  Seventeen digits
always suffice for a significand of 53 bits. -/
def shortest (r : Rounding) (tie : Tie) : Scaled :=
  let top := r.magnitude
  let found := (List.range 17).findSome? fun extra =>
    let e := top - Int.ofNat extra
    (r.onGrid? tie e).map fun digits => (⟨digits, e⟩ : Scaled)
  (found.getD ⟨0, 0⟩).trim

end WellLog.Decimal
